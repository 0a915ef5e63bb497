import SqlTree.Calendar.Scan

namespace SqlTree

/-- A date of the proleptic Gregorian calendar. -/
structure Date where
  year : Int
  month : Nat
  day : Nat
  deriving DecidableEq, Repr

namespace Date

def isLeap (year : Int) : Bool :=
  year % 4 = 0 && (year % 100 ≠ 0 || year % 400 = 0)

def daysIn (year : Int) (month : Nat) : Nat :=
  if month = 2 then (if isLeap year then 29 else 28)
  else if month = 4 ∨ month = 6 ∨ month = 9 ∨ month = 11 then 30
  else 31

/-- The years that have dates. -/
def minYear : Int := -262143

def maxYear : Int := 262142

/-- A date that the calendar has. -/
def make? (year : Int) (month day : Nat) : Option Date :=
  if minYear ≤ year ∧ year ≤ maxYear ∧ 1 ≤ month ∧ month ≤ 12 ∧ 1 ≤ day ∧ day ≤ daysIn year month then
    some ⟨year, month, day⟩
  else none

/-- Four digits for the years 0 to 9999, a sign and at least four digits for the others. -/
def yearText (year : Int) : String :=
  if year < 0 then "-" ++ Text.padded 4 year.natAbs
  else if 9999 < year then "+" ++ Text.padded 4 year.natAbs
  else Text.padded 4 year.natAbs

def text (d : Date) : String :=
  yearText d.year ++ "-" ++ Text.padded 2 d.month ++ "-" ++ Text.padded 2 d.day

/-- Year, month and day with hyphens between them. -/
def scan : Calendar.Scan Date := fun cs => do
  let (year, cs) ← Calendar.year cs
  let (_, cs) ← Calendar.separator '-' cs
  let (month, cs) ← Calendar.number 2 cs
  let (_, cs) ← Calendar.separator '-' cs
  let (day, cs) ← Calendar.number 2 cs
  return (← make? year month day, cs)

def ofText? (s : String) : Option Date := do
  let (date, rest) ← scan s.toList
  if Calendar.atEnd rest then some date else none

end Date

end SqlTree

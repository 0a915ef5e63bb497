import SqlTree.Calendar.Scan

namespace SqlTree

/-- A time of day to the nanosecond. The second 60 is a leap second. -/
structure Time where
  hour : Nat
  minute : Nat
  second : Nat
  nano : Nat
  deriving DecidableEq, Repr

namespace Time

/-- The fraction of a second: nothing, or three, six or nine digits, as few as are exact. -/
def fractionText (nano : Nat) : String :=
  if nano = 0 then ""
  else if nano % 1000000 = 0 then "." ++ Text.padded 3 (nano / 1000000)
  else if nano % 1000 = 0 then "." ++ Text.padded 6 (nano / 1000)
  else "." ++ Text.padded 9 nano

def text (t : Time) : String :=
  Text.padded 2 t.hour ++ ":" ++ Text.padded 2 t.minute ++ ":" ++ Text.padded 2 t.second ++
    fractionText t.nano

/-- Hour and minute with a colon between them. -/
def scanMinute : Calendar.Scan (Nat × Nat) := fun cs => do
  let (hour, cs) ← Calendar.number 2 cs
  let (_, cs) ← Calendar.separator ':' cs
  let (minute, cs) ← Calendar.number 2 cs
  if hour ≤ 23 ∧ minute ≤ 59 then some ((hour, minute), cs) else none

/-- An optional fraction; digits after the ninth are passed over. -/
def scanFraction : Calendar.Scan Nat
  | '.' :: cs =>
    let digits := cs.takeWhile Char.isDigit
    let kept := digits.take 9
    if digits.isEmpty then none
    else some (Text.digitsValue kept * Nat.pow 10 (9 - kept.length), cs.drop digits.length)
  | cs => some (0, cs)

/-- A colon, the second and its fraction. -/
def scanSecond : Calendar.Scan (Nat × Nat) := fun cs => do
  let (_, cs) ← Calendar.separator ':' cs
  let (second, cs) ← Calendar.number 2 cs
  let (nano, cs) ← scanFraction cs
  if second ≤ 60 then some ((second, nano), cs) else none

/-- A time with its seconds. -/
def scan : Calendar.Scan Time := fun cs => do
  let ((hour, minute), cs) ← scanMinute cs
  let ((second, nano), cs) ← scanSecond cs
  return (⟨hour, minute, second, nano⟩, cs)

/-- A time whose seconds may be left out. -/
def ofText? (s : String) : Option Time := do
  let ((hour, minute), rest) ← scanMinute s.toList
  match scanSecond rest with
  | some ((second, nano), rest) =>
    if Calendar.atEnd rest then some ⟨hour, minute, second, nano⟩ else none
  | none => if Calendar.atEnd rest then some ⟨hour, minute, 0, 0⟩ else none

end Time

end SqlTree

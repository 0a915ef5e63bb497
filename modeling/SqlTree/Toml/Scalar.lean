import SqlTree.Calendar.Date
import SqlTree.Numeric.Double
import SqlTree.Toml.Basic

namespace SqlTree.Toml

/-- What a step reads, and the text after it. -/
abbrev Read (α : Type) := List Char → Option (α × List Char)

def hexDigit? (c : Char) : Option Nat :=
  if c.isDigit then some (c.toNat - 48)
  else if 'a' ≤ c ∧ c ≤ 'f' then some (c.toNat - 87)
  else if 'A' ≤ c ∧ c ≤ 'F' then some (c.toNat - 55)
  else none

/-- Digits of which some may be separated by single underscores. -/
def digitRun? (isDigit : Char → Bool) (cs : List Char) : Option (List Char) :=
  let pieces := Text.splitAt '_' cs
  if pieces.all fun piece => !piece.isEmpty && piece.all isDigit then some pieces.flatten else none

/-- A number in a base other than ten. -/
def based? (base : Nat) (cs : List Char) : Option Int := do
  let below (c : Char) : Bool := (hexDigit? c).any (· < base)
  let digits ← digitRun? below cs
  let n := digits.foldl (fun n c => base * n + (hexDigit? c).getD 0) 0
  if n < Nat.pow 2 63 then some n else none

/-- Decimal digits without leading zeros. -/
def unsigned? (cs : List Char) : Option Nat := do
  let digits ← digitRun? Char.isDigit cs
  match digits with
  | '0' :: _ :: _ => none
  | _ => some (Text.digitsValue digits)

/-- A whole number of 64 bits, with or without a sign. -/
def integer? (cs : List Char) : Option Int :=
  match cs with
  | '0' :: 'x' :: rest => based? 16 rest
  | '0' :: 'o' :: rest => based? 8 rest
  | '0' :: 'b' :: rest => based? 2 rest
  | '-' :: rest => do
    let n ← unsigned? rest
    if n ≤ Nat.pow 2 63 then some (-(n : Int)) else none
  | '+' :: rest => do
    let n ← unsigned? rest
    if n < Nat.pow 2 63 then some n else none
  | rest => do
    let n ← unsigned? rest
    if n < Nat.pow 2 63 then some n else none

def dropSign : List Char → List Char
  | '-' :: rest | '+' :: rest => rest
  | cs => cs

/-- A number with a fraction or an exponent, or one of the words `inf` and `nan`. No number is so great
that it is rounded to infinity; so small it may be. -/
def isFloat (signed : List Char) : Bool :=
  let cs := dropSign signed
  if cs = "inf".toList ∨ cs = "nan".toList then true
  else
    let isMark (c : Char) : Bool := c == 'e' || c == 'E'
    let mantissa := cs.takeWhile fun c => !isMark c
    let power := cs.dropWhile fun c => !isMark c
    let whole := mantissa.takeWhile (· != '.')
    let fraction := mantissa.dropWhile (· != '.')
    let wholeOk := (unsigned? whole).isSome
    let fractionOk := match fraction with
      | [] => true
      | _ :: digits => (digitRun? Char.isDigit digits).isSome
    let powerOk := match power with
      | [] => true
      | _ :: digits => (digitRun? Char.isDigit (dropSign digits)).isSome
    let number? := Double.ofText? (String.ofList (signed.filter (· != '_')))
    wholeOk && fractionOk && powerOk && !(fraction.isEmpty && power.isEmpty) &&
      number? != some (.infinite false)

/-- Whether digits stand where the pattern has `0` and the same characters elsewhere. -/
def fits (pattern : String) (cs : List Char) : Bool :=
  pattern.length == cs.length &&
    (pattern.toList.zip cs).all fun (p, c) => if p = '0' then c.isDigit else p == c

/-- Hours and minutes. -/
def isMinute (cs : List Char) : Bool :=
  fits "00:00" cs && Text.digitsValue (cs.take 2) ≤ 23 && Text.digitsValue (cs.drop 3) ≤ 59

/-- A time of day to the second, of which there may be one more for a leap second. -/
def isSecond (cs : List Char) : Bool :=
  isMinute (cs.take 5) && fits ":00" (cs.drop 5) && Text.digitsValue (cs.drop 6) ≤ 60

/-- The distance of a zone from universal time. -/
def isOffset : List Char → Bool
  | ['Z'] | ['z'] => true
  | '+' :: cs | '-' :: cs => isMinute cs
  | _ => false

/-- A time of day, perhaps with a fraction and an offset. -/
def isTime (offset : Bool) (cs : List Char) : Bool :=
  let rest := match cs.drop 8 with
    | '.' :: digits =>
      if (digits.takeWhile Char.isDigit).isEmpty then '.' :: digits else digits.dropWhile Char.isDigit
    | rest => rest
  isSecond (cs.take 8) && (rest.isEmpty || (offset && isOffset rest))

/-- A date that the calendar has. -/
def isDate (cs : List Char) : Bool :=
  fits "0000-00-00" cs &&
    (Date.make? (Text.digitsValue (cs.take 4)) (Text.digitsValue ((cs.drop 5).take 2))
      (Text.digitsValue (cs.drop 8))).isSome

/-- A date, a time, or both. -/
def isDateTime (cs : List Char) : Bool :=
  if isDate (cs.take 10) then
    match cs.drop 10 with
    | [] => true
    | c :: time => (c == 'T' || c == 't' || c == ' ') && isTime true time
  else isTime false cs

/-- A value that is neither a string nor in brackets: the longest run of its characters. -/
def word : Read Toml := fun cs =>
  let isPart (c : Char) : Bool := c.isAlphanum || c == '+' || c == '-' || c == '_' || c == '.' || c == ':'
  let run := cs.takeWhile isPart
  let rest := cs.drop run.length
  let withTime : Option (List Char × List Char) :=
    match rest with
    | ' ' :: more =>
      let time := more.takeWhile isPart
      if isDateTime run && isTime true time then some (run ++ ' ' :: time, more.drop time.length) else none
    | _ => none
  let (run, rest) := withTime.getD (run, rest)
  if run = "true".toList then some (.boolean true, rest)
  else if run = "false".toList then some (.boolean false, rest)
  else match integer? run with
    | some n => some (.integer n, rest)
    | none => if isFloat run || isDateTime run then some (.scalar, rest) else none

end SqlTree.Toml

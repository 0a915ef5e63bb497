import SqlTree.Numeric.Decimal
import SqlTree.Text.Blank

namespace SqlTree

open Numeric

inductive Double where
  | nan
  | infinite (negative : Bool)
  | finite (negative : Bool) (magnitude : Magnitude)
  deriving DecidableEq, Repr

namespace Double

/-- A minus sign for negative numbers. -/
def sign (negative : Bool) : String :=
  if negative then "-" else ""

/-- The shortest positional text. -/
def text : Double → String
  | .nan => "NaN"
  | .infinite negative => sign negative ++ "inf"
  | .finite negative x => sign negative ++ x.text

/-- The double nearest to a decimal number; infinity beyond the largest one. -/
def ofDecimal (negative : Bool) (mantissa : Nat) (exponent : Int) : Double :=
  match Magnitude.ofDecimal? mantissa exponent with
  | some x => .finite negative x
  | none => .infinite negative

/-- A whole number with an optional sign. -/
def exponent? (cs : List Char) : Option Int :=
  let number? (digits : List Char) : Option Nat :=
    if digits ≠ [] ∧ digits.all Char.isDigit then some (Text.digitsValue digits) else none
  match cs with
  | '-' :: digits => (number? digits).map fun n => -(n : Int)
  | '+' :: digits => (number? digits).map fun n => (n : Int)
  | digits => (number? digits).map fun n => (n : Int)

/-- Digits with at most one point among them, and at least one digit. -/
def significand? (cs : List Char) : Option (Nat × Nat) :=
  let whole := cs.takeWhile Char.isDigit
  match cs.dropWhile Char.isDigit with
  | [] => if whole.isEmpty then none else some (Text.digitsValue whole, 0)
  | '.' :: fraction =>
    if fraction.all Char.isDigit && !(whole.isEmpty && fraction.isEmpty) then
      some (Text.digitsValue (whole ++ fraction), fraction.length)
    else none
  | _ => none

/-- A number without a sign, positional or with an exponent, or a word for one of the special values. -/
def unsigned? (negative : Bool) (cs : List Char) : Option Double :=
  let word := Text.lower (String.ofList cs)
  if word = "nan" then some .nan
  else if word = "inf" ∨ word = "infinity" then some (.infinite negative)
  else
    let isMark (c : Char) : Bool := c == 'e' || c == 'E'
    do
      let (mantissa, places) ← significand? (cs.takeWhile fun c => !isMark c)
      let power ← match cs.dropWhile (fun c => !isMark c) with
        | [] => some 0
        | _ :: power => exponent? power
      return ofDecimal negative mantissa (power - places)

def ofText? (s : String) : Option Double :=
  match s.toList with
  | '-' :: cs => unsigned? true cs
  | '+' :: cs => unsigned? false cs
  | cs => unsigned? false cs

/-- The decimal that a number names, if it is finite and not too large. -/
def decimal? : Double → Option Decimal
  | .finite negative x => Decimal.ofDouble? negative x
  | _ => none

end Double

end SqlTree

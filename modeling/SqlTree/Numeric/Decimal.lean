import SqlTree.Numeric.Binary
import SqlTree.Text.Blank

namespace SqlTree

open Numeric

/-- `coefficient / 10 ^ scale`, negated when `negative`; trailing zeros of the fraction are kept. -/
structure Decimal where
  negative : Bool
  coefficient : Nat
  scale : Nat
  deriving Repr

namespace Decimal

def maxCoefficient : Nat := Nat.pow 2 96 - 1

def maxScale : Nat := 28

/-- The number times `10 ^ places` as a whole number, for `places` no smaller than the scale. -/
def shifted (d : Decimal) (places : Nat) : Int :=
  let n : Int := d.coefficient * Nat.pow 10 (places - d.scale)
  if d.negative then -n else n

/-- Two decimals are the same when they denote the same number: `1.0` is `1.00`. -/
instance : BEq Decimal where
  beq a b := a.shifted (max a.scale b.scale) == b.shifted (max a.scale b.scale)

def text (d : Decimal) : String :=
  (if d.negative then "-" else "") ++ positional d.coefficient (-(d.scale : Int))

/-- A decimal from its parts; zero carries no sign. -/
def signed (negative : Bool) (coefficient scale : Nat) : Decimal :=
  ⟨negative && coefficient ≠ 0, coefficient, scale⟩

/-- Ends a reading that has no room for the rest of the fraction: its first digit rounds the last one
kept, a five going up. Underscores may stand among the digits left, and nothing else. -/
def rounded? (negative : Bool) (coefficient scale : Nat) (rest : List Char) : Option Decimal :=
  if !rest.all (fun c => c.isDigit || c == '_') then none
  else if (rest.find? Char.isDigit).any ('5' ≤ ·) then
    if coefficient < maxCoefficient then some (signed negative (coefficient + 1) scale)
    else if scale = 0 then none
    else some (signed negative ((coefficient + 5) / 10) (scale - 1))
  else some (signed negative coefficient scale)

/-- Reads digits with at most one point among them; an underscore may follow a digit. -/
def readDigits? (negative : Bool) : (seen point : Bool) → (coefficient scale : Nat) → List Char → Option Decimal
  | seen, _, coefficient, scale, [] => if seen then some (signed negative coefficient scale) else none
  | seen, point, coefficient, scale, c :: rest =>
    if point && maxScale ≤ scale then rounded? negative coefficient scale (c :: rest)
    else if c.isDigit then
      let next := 10 * coefficient + (c.toNat - 48)
      if maxCoefficient < next then
        if point then rounded? negative coefficient scale (c :: rest) else none
      else readDigits? negative true point next (if point then scale + 1 else 0) rest
    else if c == '.' && !point then readDigits? negative seen true coefficient scale rest
    else if c == '_' && seen then readDigits? negative seen point coefficient scale rest
    else none

/-- Reads a number without exponent. -/
def ofPlain? : List Char → Option Decimal
  | '-' :: rest => readDigits? true false false 0 0 rest
  | '+' :: rest => readDigits? false false false 0 0 rest
  | cs => readDigits? false false false 0 0 cs

/-- The exponent of a number: digits after an optional plus sign. -/
def exponent? (cs : List Char) : Option Nat :=
  let digits := match cs with
    | '+' :: rest => rest
    | _ => cs
  if digits.isEmpty || !digits.all Char.isDigit then none
  else
    let n := Text.digitsValue digits
    if n < Nat.pow 2 32 then some n else none

/-- Multiplies by a power of ten: the scale gives way first, then the coefficient grows. -/
def raised? (d : Decimal) (exponent : Nat) : Option Decimal :=
  if exponent ≤ d.scale then some { d with scale := d.scale - exponent }
  else if maxScale < exponent then none
  else
    let n := d.coefficient * Nat.pow 10 (exponent - d.scale)
    if maxCoefficient < n then none else some ⟨d.negative, n, 0⟩

/-- Divides by a power of ten. Places beyond the greatest scale are rounded away, a five going up, and
the sign stays even when nothing else does. -/
def lowered? (d : Decimal) (exponent : Nat) : Option Decimal :=
  let excess := d.scale + exponent - maxScale
  if maxScale < exponent then none
  else if excess = 0 then some { d with scale := d.scale + exponent }
  else some ⟨d.negative, (d.coefficient + 5 * Nat.pow 10 (excess - 1)) / Nat.pow 10 excess, maxScale⟩

/-- Reads a number with an exponent after `e` or `E`. -/
def ofScientific? (cs : List Char) : Option Decimal :=
  let isMark (c : Char) : Bool := c == 'e' || c == 'E'
  match cs.dropWhile (fun c => !isMark c) with
  | [] => none
  | _ :: power => do
    let d ← ofPlain? (cs.takeWhile fun c => !isMark c)
    match power with
    | '-' :: rest => d.lowered? (← exponent? rest)
    | _ => d.raised? (← exponent? power)

/-- Reads a decimal number, with or without an exponent. -/
def ofText? (s : String) : Option Decimal :=
  (ofPlain? s.toList).or (ofScientific? s.toList)

def ofInt (n : Int) : Decimal :=
  ⟨n < 0, n.natAbs, 0⟩

/-- The decimal that the shortest positional text of a double names. -/
def ofDoubleText? (negative : Bool) (x : Magnitude) : Option Decimal :=
  ofText? ((if negative then "-" else "") ++ x.text)

/-- Multiplies `coefficient * 10 ^ exponent` by a power of five within the greatest coefficient. Five
times an even number is half of it times ten, and so it is, but for the last bit, where there is no
room for five times the number. -/
def timesFives : (count : Nat) → Nat × Int → Nat × Int
  | 0, x => x
  | n + 1, (coefficient, exponent) =>
    timesFives n <|
      if coefficient % 2 = 0 ∨ maxCoefficient < 5 * coefficient then (coefficient / 2, exponent + 1)
      else (5 * coefficient, exponent)

/-- Divides `coefficient * 10 ^ exponent` by a power of five: a fifth is a tenth of the double, and where
there is no room for the double, the whole part of the quotient. -/
def overFives : (count : Nat) → Nat × Int → Nat × Int
  | 0, x => x
  | n + 1, (coefficient, exponent) =>
    overFives n <|
      if 2 * coefficient ≤ maxCoefficient then (2 * coefficient, exponent - 1)
      else (coefficient / 5, exponent)

/-- Rounds places away one by one, a five going up; nothing when only the last digit is left. -/
def withoutPlaces? : (count : Nat) → Nat → Option Nat
  | 0, coefficient => some coefficient
  | n + 1, coefficient => if coefficient < 10 then none else withoutPlaces? n ((coefficient + 5) / 10)

/-- Rounds places away one by one, a five going up, until the coefficient is below `2 ^ 52`. -/
def shortened : (scale : Nat) → Nat → Nat × Nat
  | 0, coefficient => (coefficient, 0)
  | scale + 1, coefficient =>
    if coefficient < Nat.pow 2 52 then (coefficient, scale + 1)
    else shortened scale ((coefficient + 5) / 10)

/-- Drops zeros at the end of the fraction. -/
def stripped : Nat → Nat → Nat × Nat
  | coefficient, 0 => (coefficient, 0)
  | coefficient, scale + 1 =>
    if coefficient % 10 = 0 then stripped (coefficient / 10) scale else (coefficient, scale + 1)

/-- The decimal near a double. Two is ten over five, so a power of two becomes a power of five beside a
power of ten; then the fraction is cut to the greatest scale and to the digits that a double warrants,
each digit rounding the one before it. Nothing for a number without room. -/
def ofDouble? (negative : Bool) (x : Magnitude) : Option Decimal :=
  let (coefficient, exponent) := match x.exponent with
    | .ofNat n => overFives n (x.coefficient, n)
    | .negSucc n => timesFives (n + 1) (x.coefficient, .negSucc n)
  if x.coefficient = 0 then some ⟨negative, 0, 0⟩
  else match exponent with
    | .ofNat n =>
      let whole := coefficient * Nat.pow 10 n
      if maxCoefficient < whole then none else some ⟨negative, whole, 0⟩
    | .negSucc n =>
      match withoutPlaces? (n + 1 - maxScale) coefficient with
      | none => some ⟨negative, 0, 0⟩
      | some coefficient =>
        let (coefficient, scale) := shortened (min (n + 1) maxScale) coefficient
        let (coefficient, scale) := stripped coefficient scale
        some ⟨negative, coefficient, scale⟩

end Decimal

end SqlTree

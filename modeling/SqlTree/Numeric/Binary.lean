namespace SqlTree.Numeric

/-- A finite double without its sign: `coefficient * 2 ^ exponent`, the coefficient below `2 ^ 53`. -/
structure Magnitude where
  coefficient : Nat
  exponent : Int
  deriving DecidableEq, Repr

/-- The nearest whole number to a fraction, a half going to the even neighbour. -/
def nearest (num den : Nat) : Nat :=
  let q := num / den
  let twice := 2 * (num % den)
  if twice < den then q else if den < twice then q + 1 else if q % 2 = 0 then q else q + 1

/-- Numerator and denominator of a fraction scaled by a power of a base. -/
def scaled (base num den : Nat) : Int → Nat × Nat
  | .ofNat e => (num * Nat.pow base e, den)
  | .negSucc e => (num, den * Nat.pow base (e + 1))

/-- The double nearest to `num / den`; nothing when that is beyond the largest one. -/
def Magnitude.ofFraction? (num den : Nat) : Option Magnitude :=
  if num = 0 then some ⟨0, -1074⟩
  else
    let guess : Int := (Nat.log2 num : Int) - (Nat.log2 den : Int) - 52
    let (n, d) := scaled 2 num den (-guess)
    let e := max (if n / d < Nat.pow 2 52 then guess - 1 else guess) (-1074)
    let (n, d) := scaled 2 num den (-e)
    let c := nearest n d
    let x : Magnitude := if c = Nat.pow 2 53 then ⟨Nat.pow 2 52, e + 1⟩ else ⟨c, e⟩
    if 971 < x.exponent then none else some x

/-- The double nearest to `mantissa * 10 ^ exponent`. -/
def Magnitude.ofDecimal? (mantissa : Nat) (exponent : Int) : Option Magnitude :=
  let width : Int := (Nat.toDigits 10 mantissa).length
  if mantissa = 0 ∨ exponent + width < -400 then some ⟨0, -1074⟩
  else if 400 < exponent + width then none
  else
    let (n, d) := scaled 10 mantissa 1 exponent
    Magnitude.ofFraction? n d

namespace Magnitude

def zero : Magnitude := ⟨0, -1074⟩

/-- The product of two doubles, rounded; nothing when that is beyond the largest one. -/
def product? (x y : Magnitude) : Option Magnitude :=
  let (n, d) := scaled 2 (x.coefficient * y.coefficient) 1 (x.exponent + y.exponent)
  ofFraction? n d

/-- The quotient by a double that is not below one, rounded. -/
def quotient (x y : Magnitude) : Magnitude :=
  let (n, d) := scaled 2 x.coefficient y.coefficient (x.exponent - y.exponent)
  (ofFraction? n d).getD zero

/-- The greatest power of ten below infinity. -/
def maxPower : Nat := 308

/-- The double nearest to a power of ten, for powers up to the greatest one. -/
def powerOfTen (n : Nat) : Magnitude :=
  (ofDecimal? 1 n).getD zero

/-- Divides again and again, and stops at zero. -/
def quotients (y : Magnitude) : (times : Nat) → Magnitude → Magnitude
  | 0, x => x
  | n + 1, x => if x.coefficient = 0 then x else quotients y n (x.quotient y)

/-- `significand * 10 ^ exponent` in double arithmetic: the significand and the power of ten are rounded
first, and so is their product or quotient. A power of ten below the least one divides in several steps;
one above the greatest is refused. -/
def ofParts? (significand : Nat) (exponent : Int) : Option Magnitude := do
  let x ← ofFraction? significand 1
  match exponent with
  | .ofNat n =>
    if x.coefficient = 0 then some zero
    else if maxPower < n then none
    else x.product? (powerOfTen n)
  | .negSucc n =>
    let times := n / maxPower
    some ((quotients (powerOfTen maxPower) times x).quotient (powerOfTen (n + 1 - maxPower * times)))

end Magnitude

/-- Whether the fraction `n / d` rounds to the double, judged by the midpoints to its neighbours. -/
def Magnitude.holds (x : Magnitude) (n d : Nat) : Bool :=
  let even := x.coefficient % 2 = 0
  let (xn, xd) := scaled 2 (4 * x.coefficient) 1 x.exponent
  let (unit, _) := scaled 2 1 1 x.exponent
  let narrow := x.coefficient = Nat.pow 2 52 ∧ -1074 < x.exponent
  let below := if narrow then unit else 2 * unit
  let high := (xn + 2 * unit) * d
  let low := (xn - below) * d
  let here := 4 * n * xd
  if even then low ≤ here && here ≤ high else low < here && here < high

/-- The fewest decimal digits, and among those the nearest, that read back as the double:
`digits * 10 ^ exponent` with no trailing zero. Of two that are equally near the greater is taken. -/
def Magnitude.shortest (x : Magnitude) : Nat × Int :=
  if x.coefficient = 0 then (0, 0)
  else
    let (n, d) := scaled 2 x.coefficient 1 x.exponent
    let top : Int := ((Nat.toDigits 10 (n / d)).length : Int)
    let lead : Int :=
      if n / d = 0 then 1 - ((Nat.toDigits 10 (d / n)).length : Int) else top
    let within? (count : Nat) : Option (Nat × Int) :=
      let e : Int := lead - count
      let (sn, sd) := scaled 10 n d (-e)
      let floor := sn / sd
      let fits (c : Nat) : Bool :=
        let (cn, cd) := scaled 10 c 1 e
        x.holds cn cd
      let (nearer, other) :=
        if sd ≤ 2 * (sn % sd) then (floor + 1, floor) else (floor, floor + 1)
      if fits nearer then some (nearer, e) else if fits other then some (other, e) else none
    match (List.range' 1 18).findSome? within? with
    | some (c, e) => strip 400 c e
    | none => (x.coefficient, x.exponent)
where
  strip : Nat → Nat → Int → Nat × Int
    | 0, c, e => (c, e)
    | fuel + 1, c, e => if c ≠ 0 ∧ c % 10 = 0 then strip fuel (c / 10) (e + 1) else (c, e)

/-- A decimal number in positional notation, without exponent and without a trailing point. -/
def positional (digits : Nat) : Int → String
  | .ofNat e => String.ofList (Nat.toDigits 10 digits ++ List.replicate (if digits = 0 then 0 else e) '0')
  | .negSucc e =>
    let places := e + 1
    let ds := Nat.toDigits 10 digits
    let ds := List.replicate (places + 1 - ds.length) '0' ++ ds
    String.ofList (ds.take (ds.length - places) ++ '.' :: ds.drop (ds.length - places))

/-- The positional text of a double by its fewest digits. -/
def Magnitude.text (x : Magnitude) : String :=
  let (digits, e) := x.shortest
  positional digits e

end SqlTree.Numeric

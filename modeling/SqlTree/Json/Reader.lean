import SqlTree.Json.Basic
import SqlTree.Text.Blank

/-!
Reading JSON text. A number that is not whole is computed in double arithmetic from as many of its digits
as fit 64 bits, and must not come out infinite; an escaped surrogate must be half of a pair.
-/
namespace SqlTree.Json

/-- What a step reads, and the text after it. -/
abbrev Read (α : Type) := List Char → Option (α × List Char)

def isSpace (c : Char) : Bool :=
  c == ' ' || c == '\n' || c == '\t' || c == '\r'

def skipSpace (cs : List Char) : List Char :=
  cs.dropWhile isSpace

def hexValue (c : Char) : Option Nat :=
  if c.isDigit then some (c.toNat - 48)
  else if 'a' ≤ c ∧ c ≤ 'f' then some (c.toNat - 87)
  else if 'A' ≤ c ∧ c ≤ 'F' then some (c.toNat - 55)
  else none

/-- Four hexadecimal digits. -/
def unit : Read Nat
  | a :: b :: c :: d :: rest => do
    let a ← hexValue a
    let b ← hexValue b
    let c ← hexValue c
    let d ← hexValue d
    return (((a * 16 + b) * 16 + c) * 16 + d, rest)
  | _ => none

/-- The character that the units after `\u` name; a high surrogate needs its low half right behind. -/
def unicode : Read Char := fun cs => do
  let (high, rest) ← unit cs
  if 0xDC00 ≤ high ∧ high ≤ 0xDFFF then none
  else if 0xD800 ≤ high ∧ high ≤ 0xDBFF then
    match rest with
    | '\\' :: 'u' :: rest =>
      let (low, rest) ← unit rest
      if 0xDC00 ≤ low ∧ low ≤ 0xDFFF then
        some (Char.ofNat (0x10000 + (high - 0xD800) * 0x400 + (low - 0xDC00)), rest)
      else none
    | _ => none
  else some (Char.ofNat high, rest)

/-- The character after a backslash. -/
def escape : Read Char
  | '\x22' :: rest => some ('\x22', rest)
  | '\\' :: rest => some ('\\', rest)
  | '/' :: rest => some ('/', rest)
  | 'b' :: rest => some ('\x08', rest)
  | 'f' :: rest => some ('\x0c', rest)
  | 'n' :: rest => some ('\n', rest)
  | 'r' :: rest => some ('\r', rest)
  | 't' :: rest => some ('\t', rest)
  | 'u' :: rest => unicode rest
  | _ => none

/-- The rest of a string after its opening quote; `back` holds what was read, last character first. -/
def stringRest : (fuel : Nat) → (back : List Char) → Read String
  | 0, _, _ => none
  | _, _, [] => none
  | fuel + 1, back, c :: rest =>
    if c = '\x22' then some (String.ofList back.reverse, rest)
    else if c = '\\' then do
      let (d, rest) ← escape rest
      stringRest fuel (d :: back) rest
    else if c.toNat < 0x20 then none
    else stringRest fuel (c :: back) rest

/-- The digits of a number's integer part: no leading zero but a lone one. -/
def integerDigits : Read (List Char)
  | '0' :: rest => some (['0'], rest)
  | cs =>
    let digits := cs.takeWhile Char.isDigit
    if digits.isEmpty then none else some (digits, cs.drop digits.length)

/-- A fraction with its point, or nothing. -/
def fractionDigits : Read (List Char)
  | '.' :: rest =>
    let digits := rest.takeWhile Char.isDigit
    if digits.isEmpty then none else some (digits, rest.drop digits.length)
  | cs => some ([], cs)

/-- An exponent, or nothing. -/
def exponentPart : Read (Option Int) := fun cs =>
  let power (sign : Int) (rest : List Char) : Option (Option Int × List Char) :=
    let digits := rest.takeWhile Char.isDigit
    if digits.isEmpty then none
    else some (some (sign * Text.digitsValue digits), rest.drop digits.length)
  match cs with
  | c :: rest =>
    if c = 'e' ∨ c = 'E' then
      match rest with
      | '-' :: rest => power (-1) rest
      | '+' :: rest => power 1 rest
      | rest => power 1 rest
    else some (none, cs)
  | [] => some (none, [])

/-- The range of whole numbers that are kept as such. -/
def isWhole (negative : Bool) (n : Nat) : Bool :=
  if negative then n ≠ 0 && n ≤ Nat.pow 2 63 else n < Nat.pow 2 64

/-- Adds digits to a number as long as it fits 64 bits: the number, and how many digits it took. -/
def leading (sofar : Nat) : List Char → Nat × Nat
  | [] => (sofar, 0)
  | c :: rest =>
    let next := 10 * sofar + (c.toNat - 48)
    if next < Nat.pow 2 64 then
      let (n, count) := leading next rest
      (n, count + 1)
    else (sofar, 0)

/-- A number that is not kept as a whole number. Whole digits without room still count as places before
the point; digits of the fraction without room are passed over. -/
def real? (whole fraction : List Char) (power : Int) : Option Numeric.Magnitude :=
  let (n, before) := leading 0 whole
  let (n, after) := leading n fraction
  Numeric.Magnitude.ofParts? n (power + (whole.length - before : Nat) - after)

def number (negative : Bool) : Read Json := fun cs => do
  let (digits, rest) ← integerDigits cs
  let (fraction, rest) ← fractionDigits rest
  let (power, rest) ← exponentPart rest
  let n := Text.digitsValue digits
  if fraction.isEmpty && power.isNone && isWhole negative n then
    return (.integer (if negative then -(n : Int) else n), rest)
  else
    return (.real negative (← real? digits fraction (power.getD 0)), rest)

/-- The text after a given word. -/
def word (w : String) (value : Json) : Read Json := fun cs =>
  if w.toList.isPrefixOf cs then some (value, cs.drop w.length) else none

mutual

/-- A value at the start of the text. Every character read takes at most two units of fuel. -/
def value : (fuel : Nat) → Read Json
  | 0, _ => none
  | fuel + 1, cs =>
    match skipSpace cs with
    | '\x22' :: rest => do
      let (s, rest) ← stringRest fuel [] rest
      return (.string s, rest)
    | '[' :: rest =>
      match skipSpace rest with
      | ']' :: rest => some (.array [], rest)
      | rest => do
        let (items, rest) ← items fuel rest
        return (.array items, rest)
    | '\x7b' :: rest =>
      match skipSpace rest with
      | '\x7d' :: rest => some (.object [], rest)
      | rest => do
        let (fields, rest) ← fields fuel rest
        return (.object fields, rest)
    | 'n' :: rest => word "ull" .null rest
    | 't' :: rest => word "rue" (.bool true) rest
    | 'f' :: rest => word "alse" (.bool false) rest
    | '-' :: rest => number true rest
    | cs => number false cs

/-- The items of an array up to its closing bracket. -/
def items : (fuel : Nat) → Read (List Json)
  | 0, _ => none
  | fuel + 1, cs => do
    let (item, rest) ← value fuel cs
    match skipSpace rest with
    | ',' :: rest =>
      let (more, rest) ← items fuel rest
      return (item :: more, rest)
    | ']' :: rest => return ([item], rest)
    | _ => none

/-- The fields of an object up to its closing brace. -/
def fields : (fuel : Nat) → Read (List (String × Json))
  | 0, _ => none
  | fuel + 1, cs =>
    match skipSpace cs with
    | '\x22' :: rest => do
      let (key, rest) ← stringRest fuel [] rest
      match skipSpace rest with
      | ':' :: rest =>
        let (item, rest) ← value fuel rest
        match skipSpace rest with
        | ',' :: rest =>
          let (more, rest) ← fields fuel rest
          return ((key, item) :: more, rest)
        | '\x7d' :: rest => return ([(key, item)], rest)
        | _ => none
      | _ => none
    | _ => none

end

/-- Reads a text that holds one value and white space around it. -/
def ofText? (s : String) : Option Json := do
  let cs := s.toList
  let (j, rest) ← value (2 * cs.length + 2) cs
  if (skipSpace rest).isEmpty then some j else none

end SqlTree.Json

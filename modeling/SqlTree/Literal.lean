import SqlTree.Calendar.Timestamp
import SqlTree.Error
import SqlTree.Numeric.Double

namespace SqlTree

/-- A string between delimiters `$tag$`. -/
structure DollarString where
  tag : Option String
  body : String
  deriving DecidableEq, Repr

/-- A typed value. It stands in trees and travels as the value of a bound parameter. -/
inductive Literal where
  | null
  | boolean (b : Bool)
  | integer (n : Int64)
  | decimal (d : Decimal)
  | string (s : String)
  | date (d : Date)
  | time (t : Time)
  | timestamp (t : Timestamp)
  | interval (s : String)
  | bitString (bits : String)
  | hexString (digits : String)
  | escapeString (s : String)
  | dollarString (s : DollarString)
  deriving BEq, Repr

/-- A payload of bits holds nothing but `0` and `1`. -/
def checkBits (bits : String) : Checked Unit :=
  if bits.toList.all fun c => c == '0' || c == '1' then .ok () else .error (.bits bits)

/-- A payload of hexadecimal digits holds nothing else. -/
def checkHexDigits (digits : String) : Checked Unit :=
  if digits.toList.all Text.isHexDigit then .ok () else .error (.hexDigits digits)

namespace DollarString

def delimiter (s : DollarString) : String :=
  "$" ++ s.tag.getD "" ++ "$"

/-- A tag is a bare word, and the body does not hold the delimiter. -/
def check (s : DollarString) : Checked Unit :=
  match s.tag with
  | some tag =>
    if !Text.isWord tag then .error (.dollarTag tag)
    else if Text.occursIn s.delimiter.toList s.body.toList then .error .dollarBody
    else .ok ()
  | none => if Text.occursIn s.delimiter.toList s.body.toList then .error .dollarBody else .ok ()

def make (tag : Option String) (body : String) : Checked DollarString := do
  let s : DollarString := ⟨tag, body⟩
  s.check
  return s

end DollarString

namespace Literal

def isNull : Literal → Bool
  | .null => true
  | _ => false

/-- Whether the payload is one that the literal's notation can hold. -/
def check : Literal → Checked Unit
  | .bitString bits => checkBits bits
  | .hexString digits => checkHexDigits digits
  | .dollarString s => s.check
  | _ => .ok ()

/-- An interval literal; blank text is refused. -/
def ofInterval (text : String) : Checked Literal :=
  if Text.isBlank text then .error .blankInterval else .ok (.interval text)

def ofBits (bits : String) : Checked Literal := do
  checkBits bits
  return .bitString bits

def ofHexDigits (digits : String) : Checked Literal := do
  checkHexDigits digits
  return .hexString digits

def ofDollar (tag : Option String) (body : String) : Checked Literal :=
  DollarString.make tag body |>.map .dollarString

/-- A decimal literal from a double-precision number. -/
def ofDouble (x : Double) : Checked Literal :=
  match x.decimal? with
  | some d => .ok (.decimal d)
  | none => .error (.notDecimal x.text)

/-- The variant of a literal. -/
def variant : Literal → String
  | .null => "Null"
  | .boolean _ => "Boolean"
  | .integer _ => "Integer"
  | .decimal _ => "Decimal"
  | .string _ => "String"
  | .date _ => "Date"
  | .time _ => "Time"
  | .timestamp _ => "Timestamp"
  | .interval _ => "Interval"
  | .bitString _ => "BitString"
  | .hexString _ => "HexString"
  | .escapeString _ => "EscapeString"
  | .dollarString _ => "DollarString"

end Literal

end SqlTree

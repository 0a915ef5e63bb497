import SqlTree.Json.Basic
import SqlTree.Text.Blank

namespace SqlTree.Json

/-- The four hexadecimal digits of a code unit. -/
def hexDigits (n : Nat) : List Char :=
  let digits := Nat.toDigits 16 n
  List.replicate (4 - digits.length) '0' ++ digits

/-- A character inside a string: quote, backslash and control characters are escaped. -/
def escaped (c : Char) : List Char :=
  if c = '\x22' then ['\\', '\x22']
  else if c = '\\' then ['\\', '\\']
  else if c = '\n' then ['\\', 'n']
  else if c = '\r' then ['\\', 'r']
  else if c = '\t' then ['\\', 't']
  else if c.toNat < 0x20 ∨ c.toNat = 0x7F then '\\' :: 'u' :: hexDigits c.toNat
  else [c]

def stringText (s : String) : String :=
  String.ofList ('\x22' :: s.toList.flatMap escaped ++ ['\x22'])

mutual

def text : Json → String
  | .null => "null"
  | .bool b => if b then "true" else "false"
  | .integer n => toString n
  | .real negative x =>
    let (digits, exponent) := x.shortest
    (if negative then "-" else "") ++ toString digits ++ "e" ++ toString exponent
  | .string s => stringText s
  | .array items => "[" ++ itemsText items ++ "]"
  | .object fields => "\x7b" ++ fieldsText fields ++ "\x7d"

def itemsText : List Json → String
  | [] => ""
  | [item] => item.text
  | item :: rest => item.text ++ "," ++ itemsText rest

def fieldsText : List (String × Json) → String
  | [] => ""
  | [field] => stringText field.1 ++ ":" ++ field.2.text
  | field :: rest => stringText field.1 ++ ":" ++ field.2.text ++ "," ++ fieldsText rest

end

end SqlTree.Json

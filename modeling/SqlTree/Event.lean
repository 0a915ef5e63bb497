import SqlTree.Literal
import SqlTree.Options

namespace SqlTree

inductive Event where
  /-- A rendering begins. -/
  | rendering (dialect : String) (mode : Mode) (placeholder : Placeholder)
  /-- A literal becomes the parameter of a given number. -/
  | bound (value : Literal) (index : UInt32)
  /-- Rows are cut off though nothing orders them. -/
  | unordered (dialect : String)
  deriving Repr

/-- The hexadecimal escape of a control character. -/
def controlEscape (c : Char) : List Char :=
  ['\\', 'u', '\x7b'] ++ Nat.toDigits 16 c.toNat ++ ['\x7d']

/-- A text between double quotes, with quotes, backslashes and control characters escaped. -/
def escapedText (s : String) : String :=
  let escape (c : Char) : List Char :=
    if c = '\x22' then ['\\', '\x22']
    else if c = '\\' then ['\\', '\\']
    else if c = '\n' then ['\\', 'n']
    else if c = '\r' then ['\\', 'r']
    else if c = '\t' then ['\\', 't']
    else if c = '\x00' then ['\\', '0']
    else if c.toNat < 0x20 ∨ (0x7F ≤ c.toNat ∧ c.toNat < 0xA0) then controlEscape c
    else [c]
  String.ofList ('\x22' :: s.toList.flatMap escape ++ ['\x22'])

/-- A literal with its variant around the payload, as messages show it. -/
def Literal.shown (l : Literal) : String :=
  let wrap (payload : String) : String := l.variant ++ "(" ++ payload ++ ")"
  match l with
  | .null => "Null"
  | .boolean b => wrap (if b then "true" else "false")
  | .integer n => wrap (toString n.toInt)
  | .decimal d => wrap d.text
  | .string s | .interval s | .escapeString s => wrap (escapedText s)
  | .date d => wrap d.text
  | .time t => wrap t.text
  | .timestamp t => wrap t.text
  | .bitString s | .hexString s => wrap (wrap (escapedText s))
  | .dollarString s =>
    let tag := match s.tag with
      | some tag => "Some(" ++ escapedText tag ++ ")"
      | none => "None"
    wrap ("DollarString \x7b tag: " ++ tag ++ ", body: " ++ escapedText s.body ++ " \x7d")

namespace Event

def level : Event → String
  | .rendering .. => "DEBUG"
  | .bound .. => "TRACE"
  | .unordered .. => "WARN"

def message : Event → String
  | .rendering dialect mode placeholder =>
    "Rendering for dialect '" ++ dialect ++ "' (mode=" ++ mode.label ++ ", placeholder=" ++
      placeholder.label ++ ")"
  | .bound value index => "bind: literal " ++ value.shown ++ " -> $" ++ toString index.toNat
  | .unordered dialect =>
    "OFFSET/FETCH without ORDER BY on dialect '" ++ dialect ++ "': row order is unspecified"

end Event

end SqlTree

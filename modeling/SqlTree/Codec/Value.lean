import SqlTree.Dialect
import SqlTree.Json.Basic

namespace SqlTree

/-- Why a value cannot be decoded: it does not have the form of one, or a part of it is refused. -/
inductive DecodeError where
  | malformed
  | rejected (cause : Invalid)
  deriving DecidableEq, Repr

abbrev Decoded (α : Type) := Except DecodeError α

/-- A value that passed its check, as the outcome of decoding it. -/
def Checked.decoded {α : Type} : Checked α → Decoded α
  | .ok a => .ok a
  | .error cause => .error (.rejected cause)

/-- Values with an interchange form. A structure is an object with a field for each part; a variant is its name,
or an object with the name as its single key when something is in it. -/
class Coded (α : Type) where
  encode : α → Json
  decode : Json → Decoded α

export Coded (encode decode)

namespace Codec

/-- The value that an optional reading gives. -/
def present {α : Type} : Option α → Decoded α
  | some a => .ok a
  | none => .error .malformed

/-- The fields of an object. -/
def fields : Json → Decoded (List (String × Json))
  | .object fields => .ok fields
  | _ => .error .malformed

/-- A field that has to be there. -/
def required {α : Type} [Coded α] (fields : List (String × Json)) (name : String) : Decoded α := do
  decode (← present (Json.field? name fields))

/-- A field that may be missing or null. -/
def optional (fields : List (String × Json)) (name : String) : Option Json :=
  (Json.field? name fields).filter fun j => !j.isNull

/-- A field with a value of its own when it is missing. -/
def defaulted {α : Type} [Coded α] (fields : List (String × Json)) (name : String) (missing : α) : Decoded α :=
  match Json.field? name fields with
  | some j => decode j
  | none => .ok missing

/-- The name of a variant and what is in it. -/
def variant : Json → Decoded (String × Option Json)
  | .string name => .ok (name, none)
  | .object [(name, payload)] => .ok (name, some payload)
  | _ => .error .malformed

/-- Nothing is in a variant. -/
def bare : Option Json → Bool
  | none | some .null => true
  | _ => false

/-- A variant with something in it. -/
def tagged (name : String) (payload : Json) : Json :=
  .object [(name, payload)]

def encodeOption {α : Type} [Coded α] : Option α → Json
  | some a => encode a
  | none => .null

end Codec

open Codec

instance : Coded Bool where
  encode b := .bool b
  decode
    | .bool b => .ok b
    | _ => .error .malformed

instance : Coded String where
  encode s := .string s
  decode
    | .string s => .ok s
    | _ => .error .malformed

instance : Coded Char where
  encode c := .string (String.ofList [c])
  decode
    | .string s => match s.toList with
      | [c] => .ok c
      | _ => .error .malformed
    | _ => .error .malformed

/-- A whole number between two bounds. -/
def Codec.whole (low high : Int) : Json → Decoded Int
  | .integer n => if low ≤ n ∧ n ≤ high then .ok n else .error .malformed
  | _ => .error .malformed

instance : Coded Int64 where
  encode n := .integer n.toInt
  decode j := do return Int64.ofInt (← whole Int64.minValue.toInt Int64.maxValue.toInt j)

instance : Coded UInt64 where
  encode n := .integer n.toNat
  decode j := do return UInt64.ofNat (← whole 0 (UInt64.size - 1) j).toNat

instance : Coded UInt32 where
  encode n := .integer n.toNat
  decode j := do return UInt32.ofNat (← whole 0 (UInt32.size - 1) j).toNat

instance {α : Type} [Coded α] : Coded (Option α) where
  encode := encodeOption
  decode
    | .null => .ok none
    | j => some <$> decode j

instance {α : Type} [Coded α] : Coded (List α) where
  encode items := .array (items.map encode)
  decode
    | .array items => items.mapM decode
    | _ => .error .malformed

/-- A member of a finite vocabulary is its name. -/
instance (priority := low) {α : Type} [Enumerated α] : Coded α where
  encode a := .string (Enumerated.tag a)
  decode j := do
    let (name, payload) ← variant j
    if bare payload then present (Enumerated.ofTag? name) else .error .malformed

/-- A field that may be missing or null, decoded when it is there. -/
def Codec.optionalValue {α : Type} [Coded α] (fields : List (String × Json)) (name : String) :
    Decoded (Option α) :=
  match optional fields name with
  | some j => some <$> decode j
  | none => .ok none

/-- An identifier is not blank. -/
instance : Coded Identifier where
  encode i := .object [("value", encode i.value), ("quote_style", encode i.style)]
  decode j := do
    let fs ← fields j
    let value ← required fs "value"
    let style ← defaulted fs "quote_style" QuoteStyle.none
    (Identifier.styled value style).decoded

instance : Coded QualifiedName where
  encode n := encode n.parts
  decode j := do (QualifiedName.make (← decode j)).decoded

/-- A decimal is its text; a number in its place is read as the text of it. -/
instance : Coded Decimal where
  encode d := .string d.text
  decode
    | .string s => present (Decimal.ofText? s)
    | .integer n => .ok (Decimal.ofInt n)
    | .real negative x => present (Decimal.ofDoubleText? negative x)
    | _ => .error .malformed

instance : Coded Date where
  encode d := .string d.text
  decode j := do present (Date.ofText? (← decode j))

instance : Coded Time where
  encode t := .string t.text
  decode j := do present (Time.ofText? (← decode j))

instance : Coded Timestamp where
  encode t := .string t.text
  decode j := do present (Timestamp.ofText? (← decode j))

instance : Coded DollarString where
  encode s := .object [("tag", encode s.tag), ("body", encode s.body)]
  decode j := do
    let fs ← fields j
    let tag ← optionalValue fs "tag"
    (DollarString.make tag (← required fs "body")).decoded

instance : Coded Literal where
  encode
    | .null => .string "Null"
    | .boolean b => tagged "Boolean" (encode b)
    | .integer n => tagged "Integer" (encode n)
    | .decimal d => tagged "Decimal" (encode d)
    | .string s => tagged "String" (encode s)
    | .date d => tagged "Date" (encode d)
    | .time t => tagged "Time" (encode t)
    | .timestamp t => tagged "Timestamp" (encode t)
    | .interval s => tagged "Interval" (encode s)
    | .bitString s => tagged "BitString" (encode s)
    | .hexString s => tagged "HexString" (encode s)
    | .escapeString s => tagged "EscapeString" (encode s)
    | .dollarString s => tagged "DollarString" (encode s)
  decode j := do
    match ← variant j with
    | ("Null", payload) => if bare payload then .ok .null else .error .malformed
    | ("Boolean", some p) => .boolean <$> decode p
    | ("Integer", some p) => .integer <$> decode p
    | ("Decimal", some p) => .decimal <$> decode p
    | ("String", some p) => .string <$> decode p
    | ("Date", some p) => .date <$> decode p
    | ("Time", some p) => .time <$> decode p
    | ("Timestamp", some p) => .timestamp <$> decode p
    | ("Interval", some p) => .interval <$> decode p
    | ("BitString", some p) => do (Literal.ofBits (← decode p)).decoded
    | ("HexString", some p) => do (Literal.ofHexDigits (← decode p)).decoded
    | ("EscapeString", some p) => .escapeString <$> decode p
    | ("DollarString", some p) => .dollarString <$> decode p
    | _ => .error .malformed

instance : Coded ParamKind where
  encode
    | .anonymous => .string "Anonymous"
    | .named name => tagged "Named" (encode name)
    | .ordinal index => tagged "Ordinal" (encode index)
  decode j := do
    match ← variant j with
    | ("Anonymous", payload) => if bare payload then .ok .anonymous else .error .malformed
    | ("Named", some p) => .named <$> decode p
    | ("Ordinal", some p) => .ordinal <$> decode p
    | _ => .error .malformed

instance : Coded Param where
  encode p := .object [("kind", encode p.kind), ("value", encode p.value)]
  decode j := do
    let fs ← fields j
    let kind ← required fs "kind"
    let p : Param := ⟨kind, ← optionalValue fs "value"⟩
    (p.check).decoded
    return p

instance : Coded CustomOperator where
  encode op := .object [("schema", encode op.schema), ("symbol", encode op.symbol)]
  decode j := do
    let fs ← fields j
    let schema ← optionalValue fs "schema"
    (CustomOperator.make schema (← required fs "symbol")).decoded

instance : Coded TypeBase where
  encode
    | .keyword word => tagged "Keyword" (encode word)
    | .named name => tagged "Named" (encode name)
  decode j := do
    match ← variant j with
    | ("Keyword", some p) => .keyword <$> decode p
    | ("Named", some p) => .named <$> decode p
    | _ => .error .malformed

instance : Coded ColumnRef where
  encode c := .object [("qualifier", encode c.qualifier), ("name", encode c.name)]
  decode j := do
    let fs ← fields j
    return ⟨← optionalValue fs "qualifier", ← required fs "name"⟩

instance : Coded TableAlias where
  encode a := .object [("name", encode a.name), ("columns", encode a.columns)]
  decode j := do
    let fs ← fields j
    return ⟨← required fs "name", ← required fs "columns"⟩

instance : Coded NamedTable where
  encode t := .object
    [("schema", encode t.schema), ("name", encode t.name), ("alias", encode t.correlation),
      ("inheritance", encode t.inheritance)]
  decode j := do
    let fs ← fields j
    return ⟨← optionalValue fs "schema", ← required fs "name", ← optionalValue fs "alias",
      ← required fs "inheritance"⟩

instance : Coded LimitOffset where
  encode w := .object [("limit", encode w.limit), ("offset", encode w.offset)]
  decode j := do
    let fs ← fields j
    return ⟨← optionalValue fs "limit", ← optionalValue fs "offset"⟩

instance : Coded Locking where
  encode l := .object
    [("mode", encode l.mode), ("of_tables", encode l.tables), ("nowait", encode l.nowait),
      ("skip_locked", encode l.skipLocked)]
  decode j := do
    let fs ← fields j
    let mode ← required fs "mode"
    let tables ← defaulted fs "of_tables" []
    let nowait ← defaulted fs "nowait" false
    (Locking.make mode tables nowait (← defaulted fs "skip_locked" false)).decoded

instance : Coded BindParam where
  encode p := .object [("name", encode p.name), ("value", encode p.value)]
  decode j := do
    let fs ← fields j
    return ⟨← optionalValue fs "name", ← optionalValue fs "value"⟩

instance : Coded SqlText where
  encode t := .object [("sql", encode t.sql), ("params", encode t.params)]
  decode j := do
    let fs ← fields j
    return ⟨← required fs "sql", ← required fs "params"⟩

instance : Coded RenderOptions where
  encode o := .object
    [("mode", encode o.mode), ("placeholder", encode o.placeholder), ("pretty", encode o.pretty)]
  decode j := do
    let fs ← fields j
    return ⟨← defaulted fs "mode" .inline, ← defaulted fs "placeholder" .positional,
      ← defaulted fs "pretty" false⟩

instance : Coded Quoter where
  encode q := .object [("open", encode q.opening), ("close", encode q.closing)]
  decode j := do
    let fs ← fields j
    return ⟨← required fs "open", ← required fs "close"⟩

instance : Coded NullSorting where
  encode n := .object
    [("explicit", encode n.explicit), ("asc_default", encode n.ascDefault),
      ("desc_default", encode n.descDefault)]
  decode j := do
    let fs ← fields j
    return ⟨← required fs "explicit", ← required fs "asc_default", ← required fs "desc_default"⟩

instance : Coded Capabilities where
  encode caps := .object [("features", encode caps.toList)]
  decode j := do
    let fs ← fields j
    return .ofList (← required fs "features")

end SqlTree

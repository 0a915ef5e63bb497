import SqlTree.Feature

namespace SqlTree

/-- A part from which no node can be made, or that cannot be written. -/
inductive Invalid where
  | blankIdentifier
  | emptyName
  | blankInterval
  | bits (text : String)
  | hexDigits (text : String)
  | dollarTag (tag : String)
  | dollarBody
  | parameterName (name : String)
  | ordinalZero
  | blankOperator
  | operatorSymbol (symbol : String)
  | blankTypeKeyword
  | typeKeyword (keyword : String)
  | noArm
  | noRow
  | noUsingColumn
  | lockConflict
  | fewTerms
  | operatorCount (terms operators : Nat)
  | noCte
  | tableParts (name : String)
  | notDecimal (number : String)
  | emptySelect
  | noBody (name : String)
  | noTerms
  | nameConflict (name : String)
  | stated (reason : String)
  deriving DecidableEq, Repr

namespace Invalid

def message : Invalid → String
  | .blankIdentifier => "identifier must not be blank"
  | .emptyName => "qualified name requires at least one part"
  | .blankInterval => "interval literal must not be blank"
  | .bits s => "bit string may only contain 0 and 1: '" ++ s ++ "'"
  | .hexDigits s => "hex string may only contain hexadecimal digits: '" ++ s ++ "'"
  | .dollarTag s => "invalid dollar quote tag: '" ++ s ++ "'"
  | .dollarBody => "dollar string body contains its own delimiter"
  | .parameterName s => "invalid parameter name: '" ++ s ++ "'"
  | .ordinalZero => "parameter ordinals start at 1"
  | .blankOperator => "operator symbol must not be blank"
  | .operatorSymbol s => "invalid operator symbol: '" ++ s ++ "'"
  | .blankTypeKeyword => "type keyword must not be blank"
  | .typeKeyword s => "invalid type keyword: '" ++ s ++ "'"
  | .noArm => "CASE requires at least one WHEN arm"
  | .noRow => "row list requires at least one row"
  | .noUsingColumn => "USING requires at least one column"
  | .lockConflict => "NOWAIT and SKIP LOCKED are mutually exclusive"
  | .fewTerms => "composite query requires at least two terms"
  | .operatorCount terms operators =>
    "composite query with " ++ toString terms ++ " terms needs " ++ toString (terms - 1) ++
      " operators, got " ++ toString operators
  | .noCte => "WITH requires at least one CTE"
  | .tableParts s => "table name has too many parts: '" ++ s ++ "'"
  | .notDecimal s => "cannot convert " ++ s ++ " to a decimal: Error while converting to Decimal"
  | .emptySelect => "SELECT requires at least one item"
  | .noBody s => "common table expression '" ++ s ++ "' has no body"
  | .noTerms => "set operation has no terms"
  | .nameConflict s => "parameter :" ++ s ++ " is bound to two different values"
  | .stated s => s

end Invalid

/-- A parameter for which there is no value: the ordinal one of a given number, or an anonymous one. -/
inductive Valueless where
  | ordinal (index : UInt32)
  | anonymous
  deriving DecidableEq, Repr

def Valueless.message : Valueless → String
  | .ordinal n => "parameter $" ++ toString n.toNat ++ " has no value"
  | .anonymous => "anonymous parameter has no value"

/-- Why building or writing a tree stops. `unresolved` is raised before anything is written, `unbound`
at the parameter itself. -/
inductive Error where
  | invalid (cause : Invalid)
  | unsupported (construct : Construct) (dialect : String)
  | unresolved (param : Valueless)
  | unbound (param : Valueless)
  | offsetWithTop (dialect : String)
  | limitWithTop (dialect : String)
  | config
  deriving DecidableEq, Repr

namespace Error

def message : Error → String
  | .invalid cause => "Invalid argument: " ++ cause.message
  | .unsupported construct dialect =>
    "Dialect '" ++ dialect ++ "' does not support " ++ construct.feature.name ++ " (required by " ++
      construct.label ++ ")"
  | .unresolved param => "Unresolved parameter: " ++ param.message ++ " to bind"
  | .unbound param => "Unresolved parameter: " ++ param.message
  | .offsetWithTop dialect =>
    "Unsupported operation: dialect '" ++ dialect ++
      "' paginates with TOP and cannot express an offset"
  | .limitWithTop dialect =>
    "Unsupported operation: dialect '" ++ dialect ++ "' cannot limit a set operation with TOP"
  | .config => "Configuration error"

end Error

/-- A result that may be refused for an invalid part. -/
abbrev Checked (α : Type) := Except Invalid α

end SqlTree

import SqlTree.Name

namespace SqlTree

inductive TimeZoneSpec where
  | none
  | withTimeZone
  | withoutTimeZone
  deriving DecidableEq, Repr

instance : Enumerated TimeZoneSpec where
  members := [.none, .withTimeZone, .withoutTimeZone]
  tag
    | .none => "None"
    | .withTimeZone => "WithTimeZone"
    | .withoutTimeZone => "WithoutTimeZone"

/-- A built-in type keyword such as `DOUBLE PRECISION`, or the name of a user's type. -/
inductive TypeBase where
  | keyword (word : String)
  | named (name : QualifiedName)
  deriving DecidableEq, Repr

namespace TypeBase

/-- A keyword is made of ASCII letters, digits, spaces and underscores, and is not blank. -/
def check : TypeBase → Checked Unit
  | .keyword word =>
    if Text.isBlank word then .error .blankTypeKeyword
    else if word.toList.all fun c => Text.isWordChar c || c == ' ' then .ok ()
    else .error (.typeKeyword word)
  | .named _ => .ok ()

end TypeBase

end SqlTree

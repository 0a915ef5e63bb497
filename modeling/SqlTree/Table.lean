import SqlTree.Name

namespace SqlTree

/-- `AS name (columns)` -/
structure TableAlias where
  name : Identifier
  columns : List Identifier
  deriving DecidableEq, Repr

inductive Inheritance where
  | default
  | only
  | withDescendants
  deriving DecidableEq, Repr

instance : Enumerated Inheritance where
  members := [.default, .only, .withDescendants]
  tag
    | .default => "Default"
    | .only => "Only"
    | .withDescendants => "WithDescendants"

structure NamedTable where
  schema : Option Identifier
  name : Identifier
  correlation : Option TableAlias
  inheritance : Inheritance
  deriving DecidableEq, Repr

/-- A table by its bare name. -/
def NamedTable.ofName (name : Identifier) : NamedTable :=
  ⟨none, name, none, .default⟩

inductive JoinKind where
  | inner
  | left
  | right
  | full
  deriving DecidableEq, Repr

namespace JoinKind

instance : Enumerated JoinKind where
  members := [.inner, .left, .right, .full]
  tag
    | .inner => "Inner"
    | .left => "Left"
    | .right => "Right"
    | .full => "Full"

def keyword : JoinKind → String
  | .inner => "INNER JOIN"
  | .left => "LEFT JOIN"
  | .right => "RIGHT JOIN"
  | .full => "FULL JOIN"

end JoinKind

end SqlTree

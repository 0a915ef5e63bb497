import SqlTree.Visit

namespace SqlTree

/-- What tells a node from others of its kind, where messages show it. -/
def Form.detail? : {k : Kind} → Form k → Option String
  | _, .column ⟨some q, name⟩ => some (q.value ++ "." ++ name.value)
  | _, .column ⟨none, name⟩ => some name.value
  | _, .literal value => some value.variant
  | _, .param p => some p.kind.text
  | _, .call name _ => some name.text
  | _, .callStar name _ => some name.text
  | _, .namedTable t => some t.name.value
  | _, .cte name _ _ => some name.value
  | _, .windowDef name => some name.value
  | _, _ => none

/-- The kind of a node, and its detail if it has one. -/
def Tree.label {k : Kind} (t : Tree k) : String :=
  match t.form.detail? with
  | some detail => k.label ++ " " ++ detail
  | none => k.label

namespace Visitor

/-- Lists the labels of all nodes with their depth. Nodes of the kinds in `stop` are listed, but what is
below them is not. -/
def outline (stop : List Kind) : Visitor Id (List (Nat × String)) where
  unit := []
  combine := (· ++ ·)
  enter := fun {k} t below =>
    let inner := if stop.contains k then [] else below.run
    (0, t.label) :: inner.map fun entry => (entry.1 + 1, entry.2)

/-- Gives the label at a leaf, and at all other nodes the result of the walk below. -/
def leaves (unit : String) (combine : String → String → String) : Visitor Id String where
  unit := unit
  combine := combine
  enter := fun {k} t below => if k.isLeaf then t.label else below

end Visitor

namespace Tree

/-- The labels of all nodes in written order, each with its depth below the root. -/
def outline (stop : List Kind) {k : Kind} (t : Tree k) : List (Nat × String) :=
  (t.visit (.outline stop)).run

/-- How the results of the leaves are joined, with `.` for the unit and `+` for the product. -/
def joined {k : Kind} (t : Tree k) : String :=
  (t.visit (.leaves "." fun a b => "(" ++ a ++ "+" ++ b ++ ")")).run

/-- The label of what was visited last; `-` stands for a node without nodes below it. -/
def lastVisited {k : Kind} (t : Tree k) : String :=
  (t.visit (.leaves "-" fun _ next => next)).run

end Tree

end SqlTree

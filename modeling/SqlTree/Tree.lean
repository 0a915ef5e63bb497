import SqlTree.Form

/-!
Trees: a form with the nodes that fill its slots. Functions that treat all nodes alike recurse on trees
and forests; functions that treat each form in its own way see the contents of the slots as ordinary
values, options and lists (`Fill`).
-/
namespace SqlTree

mutual

/-- A node and all nodes below it. -/
inductive Tree : Kind → Type where
  | node {k : Kind} (form : Form k) (below : Forest form.slots) : Tree k

/-- The nodes that fill a list of slots. -/
inductive Forest : List Slot → Type where
  | nil : Forest []
  | one {k : Kind} {slots : List Slot} (tree : Tree k) (rest : Forest slots) : Forest (.one k :: slots)
  | absent {k : Kind} {slots : List Slot} (rest : Forest slots) : Forest (.opt k :: slots)
  | present {k : Kind} {slots : List Slot} (tree : Tree k) (rest : Forest slots) :
      Forest (.opt k :: slots)
  | done {k : Kind} {slots : List Slot} (rest : Forest slots) : Forest (.many k :: slots)
  | more {k : Kind} {slots : List Slot} (tree : Tree k) (rest : Forest (.many k :: slots)) :
      Forest (.many k :: slots)
  | noArm {slots : List Slot} (rest : Forest slots) : Forest (.arms :: slots)
  | arm {slots : List Slot} (cond result : Tree .expr) (rest : Forest (.arms :: slots)) :
      Forest (.arms :: slots)

end

/-- What fills a slot when a node of kind `k` is represented in `α k`. -/
abbrev Slot.Fill (α : Kind → Type) : Slot → Type
  | .one k => α k
  | .opt k => Option (α k)
  | .many k => List (α k)
  | .arms => List (α .expr × α .expr)

/-- What fills a list of slots. -/
abbrev Fill (α : Kind → Type) : List Slot → Type
  | [] => Unit
  | slot :: slots => slot.Fill α × Fill α slots

/-- A node together with what was computed from it. -/
structure Part (β : Type) (k : Kind) where
  tree : Tree k
  value : β

mutual

/-- Computes a value at every node from the node's form and from the parts below it. -/
def Tree.para {β : Type} (step : {k : Kind} → (form : Form k) → Fill (Part β) form.slots → β) :
    {k : Kind} → Tree k → β
  | _, .node form below => step form (below.para step)

def Forest.para {β : Type} (step : {k : Kind} → (form : Form k) → Fill (Part β) form.slots → β) :
    {slots : List Slot} → Forest slots → Fill (Part β) slots
  | _, .nil => ()
  | _, .one t rest => (⟨t, t.para step⟩, rest.para step)
  | _, .absent rest => (none, rest.para step)
  | _, .present t rest => (some ⟨t, t.para step⟩, rest.para step)
  | _, .done rest => ([], rest.para step)
  | _, .more t rest =>
    let others := rest.para step
    (⟨t, t.para step⟩ :: others.1, others.2)
  | _, .noArm rest => ([], rest.para step)
  | _, .arm c t rest =>
    let others := rest.para step
    ((⟨c, c.para step⟩, ⟨t, t.para step⟩) :: others.1, others.2)

end

namespace Fill

/-- Applies a function to everything that fills the slots. -/
def map {α β : Kind → Type} (f : {k : Kind} → α k → β k) : (slots : List Slot) → Fill α slots → Fill β slots
  | [], _ => ()
  | .one _ :: slots, (a, rest) => (f a, map f slots rest)
  | .opt _ :: slots, (a, rest) => (a.map f, map f slots rest)
  | .many _ :: slots, (a, rest) => (a.map f, map f slots rest)
  | .arms :: slots, (a, rest) => (a.map fun p => (f p.1, f p.2), map f slots rest)

end Fill

namespace Forest

/-- The contents of the slots. -/
def contents : {slots : List Slot} → Forest slots → Fill Tree slots
  | _, .nil => ()
  | _, .one t rest => (t, rest.contents)
  | _, .absent rest => (none, rest.contents)
  | _, .present t rest => (some t, rest.contents)
  | _, .done rest => ([], rest.contents)
  | _, .more t rest => (t :: rest.contents.1, rest.contents.2)
  | _, .noArm rest => ([], rest.contents)
  | _, .arm c t rest => ((c, t) :: rest.contents.1, rest.contents.2)

def ofList {k : Kind} {slots : List Slot} (ts : List (Tree k)) (rest : Forest slots) :
    Forest (.many k :: slots) :=
  ts.foldr .more (.done rest)

def ofOption {k : Kind} {slots : List Slot} (t : Option (Tree k)) (rest : Forest slots) :
    Forest (.opt k :: slots) :=
  match t with
  | none => .absent rest
  | some t => .present t rest

def ofArms {slots : List Slot} (arms : List (Tree .expr × Tree .expr)) (rest : Forest slots) :
    Forest (.arms :: slots) :=
  arms.foldr (fun a r => .arm a.1 a.2 r) (.noArm rest)

/-- The forest with given contents. -/
def ofContents : (slots : List Slot) → Fill Tree slots → Forest slots
  | [], _ => .nil
  | .one _ :: slots, (t, rest) => .one t (ofContents slots rest)
  | .opt _ :: slots, (t, rest) => ofOption t (ofContents slots rest)
  | .many _ :: slots, (ts, rest) => ofList ts (ofContents slots rest)
  | .arms :: slots, (arms, rest) => ofArms arms (ofContents slots rest)

end Forest

namespace Tree

def form {k : Kind} : Tree k → Form k
  | .node form _ => form

/-- The nodes right below a node. -/
def contents {k : Kind} : (t : Tree k) → Fill Tree t.form.slots
  | .node _ below => below.contents

/-- The node of a given form and contents. -/
def ofContents {k : Kind} (form : Form k) (contents : Fill Tree form.slots) : Tree k :=
  .node form (Forest.ofContents form.slots contents)

/-- Computes a value at every node from the node's form and the values of the nodes below it. -/
def fold {β : Type} (step : {k : Kind} → (form : Form k) → Fill (fun _ => β) form.slots → β) {k : Kind}
    (t : Tree k) : β :=
  t.para fun form parts => step form (Fill.map (fun part => part.value) form.slots parts)

end Tree

abbrev Expr := Tree .expr

abbrev Predicate := Tree .predicate

abbrev ValueSet := Tree .valueSet

abbrev TableRef := Tree .tableRef

abbrev Join := Tree .join

abbrev Query := Tree .query

abbrev Select := Tree .select

abbrev SelectItem := Tree .selectItem

abbrev Frame := Tree .frame

abbrev Bound := Tree .bound

end SqlTree

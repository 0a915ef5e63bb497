import SqlTree.Label
import SqlTree.Edit
import SqlTree.Tree.Equality
import SqlTree.Tree.Node

namespace SqlTree

/-- What an edit does at the nodes that it is about. -/
inductive Rule where
  /-- Nodes of the kind are kept with all that is below them; leaves are not concerned. -/
  | keep (kind : Kind)
  /-- Nodes of the kind are built anew, also where nothing changes. -/
  | touch (kind : Kind)
  | renameColumn (old : String) (new : Identifier)
  | renameTable (old : String) (new : Identifier)
  /-- A higher limit becomes this one. -/
  | capLimit (limit : UInt64)
  /-- Anonymous parameters get numbers in written order. -/
  | numberParams
  | setLocking (locking : Locking)
  /-- Every node equal to the old one becomes the new one. -/
  | replace {k : Kind} (old new : Tree k)

namespace Rule

def keeps (kind : Kind) : Rule → Bool
  | .keep k => k = kind
  | _ => false

def touches (kind : Kind) : Rule → Bool
  | .touch k => k = kind
  | _ => false

/-- The node that a rule puts in the place of another one, if it applies, and how many parameters are
numbered then. -/
def result? (rule : Rule) (numbered : UInt32) {k : Kind} (t : Tree k) : Option (Tree k × UInt32) :=
  match rule, k, t with
  | .renameColumn old new, .column, .column c =>
    if c.name.value = old then some (.column { c with name := new }, numbered) else none
  | .renameTable old new, .namedTable, .namedTable table =>
    if table.name.value = old then some (.namedTable { table with name := new }, numbered) else none
  | .capLimit limit, .limitOffset, .limitOffset ⟨some n, offset⟩ =>
    if limit < n then some (.limitOffset ⟨some limit, offset⟩, numbered) else none
  | .numberParams, .param, .param ⟨.anonymous, value⟩ =>
    some (.param (.numbered (numbered + 1) value), numbered + 1)
  | .setLocking l, .locking, _ => some (.locking l, numbered)
  | @replace j old new, k, t =>
    if h : j = k then
      if h ▸ old == t then some (h ▸ new, numbered) else none
    else none
  | _, _, _ => none

/-- The record of an edit. -/
structure Record where
  numbered : UInt32
  /-- Labels of the nodes met, in order. -/
  met : List String
  /-- Labels of the nodes for which a new one was built, in the order of completion. -/
  renewed : List String

namespace Record

def start : Record :=
  ⟨0, [], []⟩

def meet (label : String) (r : Record) : Record :=
  { r with met := r.met ++ [label] }

def renew (label : String) (r : Record) : Record :=
  { r with renewed := r.renewed ++ [label] }

end Record

/-- The first rule that applies gives the new node; if none does, the nodes below are edited. -/
def replacement (rules : List Rule) {k : Kind} (t : Tree k) (below : StateM Record (Option (Tree k))) :
    StateM Record (Option (Tree k)) := do
  let numbered := (← get).numbered
  match rules.findSome? fun rule => rule.result? numbered t with
  | some (new, numbered) =>
    modify fun r => { r with numbered := numbered }
    return some new
  | none => below

/-- Edits by a list of rules, of which earlier ones come first. -/
def editor (rules : List Rule) : Editor (StateM Record) := fun {k} t below => do
  modify (Record.meet t.label)
  if !k.isLeaf && rules.any (keeps k) then
    return none
  let new? ← replacement rules t below
  let result := if rules.any (touches k) then some (new?.getD t) else new?
  if result.isSome then
    modify (Record.renew t.label)
  return result

end Rule

/-- Edits a tree by rules: the new tree, or none when the tree is kept, and the record. -/
def Tree.editBy (rules : List Rule) {k : Kind} (t : Tree k) : Option (Tree k) × Rule.Record :=
  (t.edit (Rule.editor rules)).run .start

end SqlTree

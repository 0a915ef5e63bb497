import SqlTree.Tree

namespace SqlTree

/-- Called at every node, with the editing of the nodes below it. The answer is a new node, or none to keep the
node as it is. -/
abbrev Editor (m : Type → Type) :=
  {k : Kind} → Tree k → m (Option (Tree k)) → m (Option (Tree k))

/-- The pair of two things of which some may be new; none when neither is. -/
def renewed {α β γ : Type} (pair : α → β → γ) (a : α) (b : β) : Option α → Option β → Option γ
  | none, none => none
  | a?, b? => some (pair (a?.getD a) (b?.getD b))

mutual

/-- The new node, or none when the node is kept. A node is built anew only when some node below it is, and then
its form stays. -/
def Tree.edit {m : Type → Type} [Monad m] (r : Editor m) : {k : Kind} → Tree k → m (Option (Tree k))
  | _, .node form below =>
    r (.node form below) do
      let below? ← below.edit r
      return below?.map (.node form)

/-- The new forest, or none when all its nodes are kept. -/
def Forest.edit {m : Type → Type} [Monad m] (r : Editor m) :
    {slots : List Slot} → Forest slots → m (Option (Forest slots))
  | _, .nil => pure none
  | _, .one t rest => do
    let t? ← t.edit r
    return renewed .one t rest t? (← rest.edit r)
  | _, .absent rest => do return (← rest.edit r).map .absent
  | _, .present t rest => do
    let t? ← t.edit r
    return renewed .present t rest t? (← rest.edit r)
  | _, .done rest => do return (← rest.edit r).map .done
  | _, .more t rest => do
    let t? ← t.edit r
    return renewed .more t rest t? (← rest.edit r)
  | _, .noArm rest => do return (← rest.edit r).map .noArm
  | _, .arm c t rest => do
    let c? ← c.edit r
    let t? ← t.edit r
    let arm? := renewed Prod.mk c t c? t?
    return renewed (fun arm rest => .arm arm.1 arm.2 rest) (c, t) rest arm? (← rest.edit r)

end

/-- Changes nothing: every node is kept. -/
def Editor.identity {m : Type → Type} : Editor m :=
  fun _ below => below

end SqlTree

import SqlTree.Tree

namespace SqlTree

/-- Called at every node, a visitor decides whether the nodes below are walked; they are walked left to right in
written order, and their results are joined. -/
structure Visitor (m : Type → Type) (ρ : Type) where
  /-- The result of a node without nodes below it. -/
  unit : ρ
  /-- Joins the result so far with the next node's result. -/
  combine : ρ → ρ → ρ
  /-- Called at every node, with the walk over the nodes below it. -/
  enter : {k : Kind} → Tree k → m ρ → m ρ

namespace Visitor

/-- The result of a walk from the results of the nodes below: a wrapper hands its node's result on, any
other form joins all of them, starting from the unit. -/
def gather {m : Type → Type} {ρ : Type} (v : Visitor m ρ) {k : Kind} (form : Form k) (results : List ρ) :
    ρ :=
  if form.isWrapper then results.headD v.unit else results.foldl v.combine v.unit

end Visitor

mutual

/-- Visits a node, and through the visitor the nodes below it. -/
def Tree.visit {m : Type → Type} {ρ : Type} [Monad m] (v : Visitor m ρ) : {k : Kind} → Tree k → m ρ
  | _, .node form below => v.enter (.node form below) (v.gather form <$> below.visit v)

/-- The results of the nodes of a forest, in written order. -/
def Forest.visit {m : Type → Type} {ρ : Type} [Monad m] (v : Visitor m ρ) :
    {slots : List Slot} → Forest slots → m (List ρ)
  | _, .nil => pure []
  | _, .one t rest => do
    let r ← t.visit v
    return r :: (← rest.visit v)
  | _, .absent rest => rest.visit v
  | _, .present t rest => do
    let r ← t.visit v
    return r :: (← rest.visit v)
  | _, .done rest => rest.visit v
  | _, .more t rest => do
    let r ← t.visit v
    return r :: (← rest.visit v)
  | _, .noArm rest => rest.visit v
  | _, .arm c t rest => do
    let r ← c.visit v
    let s ← t.visit v
    return r :: s :: (← rest.visit v)

end

end SqlTree

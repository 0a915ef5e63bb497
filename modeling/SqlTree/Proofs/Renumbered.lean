import SqlTree.Proofs.Numbered
import SqlTree.Proofs.Visited

namespace SqlTree

/-- A relation between the results of two visitors, one before and one after numbering, that also knows the
number given last before the visited part and behind it. -/
structure Visitor.Across {ρ σ : Type} (v : Visitor Id ρ) (u : Visitor Id σ)
    (R : UInt32 → UInt32 → ρ → σ → Prop) : Prop where
  before : v.Lawful
  after : u.Lawful
  unit : ∀ last, R last last v.unit u.unit
  combine : ∀ {i j l a b c d}, R i j a b → R j l c d → R i l (v.combine a c) (u.combine b d)
  literal : ∀ (value : Literal) (n : Numbering),
    R n.last ((Expr.literal value).numbered n).2.last
      ((Expr.literal value).visit v) (((Expr.literal value).numbered n).1.visit u)
  param : ∀ (p : Param) (n : Numbering),
    R n.last ((Expr.param p).numbered n).2.last
      ((Expr.param p).visit v) (((Expr.param p).numbered n).1.visit u)
  typeName : ∀ (t : Tree .typeName) (last : UInt32), R last last (t.visit v) (t.visit u)
  plain : ∀ {k : Kind} {form : Form k}, form.isNumbered = false → ∀ (below below' : Forest form.slots) {i j},
    R i j (below.total v) (below'.total u) →
      R i j (v.enter (.node form below) (below.total v)) (u.enter (.node form below') (below'.total u))

namespace Visitor.Across

variable {ρ σ : Type} {v : Visitor Id ρ} {u : Visitor Id σ} {R : UInt32 → UInt32 → ρ → σ → Prop}

mutual

/-- Such a relation holds between a tree and the numbered tree. -/
theorem visit (across : v.Across u R) : {k : Kind} → (t : Tree k) → (n : Numbering) →
    R n.last (t.numbered n).2.last (t.visit v) ((t.numbered n).1.visit u)
  | _, .node form below, n => by
    cases form.numbered with
    | literal =>
      match below with
      | .one (.literal value) .nil => exact across.literal value n
    | param =>
      match below with
      | .one (.param p) .nil => exact across.param p n
    | typeName => exact across.typeName _ n.last
    | plain other =>
      rw [Numbering.numbered_plain n other, across.before.visit_node, across.after.visit_node]
      exact across.plain other _ _ (across.total below n)

theorem total (across : v.Across u R) : {slots : List Slot} → (f : Forest slots) → (n : Numbering) →
    R n.last (f.numbered n).2.last (f.total v) ((f.numbered n).1.total u)
  | _, .nil, n => across.unit n.last
  | _, .one t rest, n => by
    rw [Forest.numbered_one, across.before.total_one, across.after.total_one]
    exact across.combine (across.visit t n) (across.total rest _)
  | _, .absent rest, n => by
    rw [Forest.numbered_absent]
    exact across.total rest n
  | _, .present t rest, n => by
    rw [Forest.numbered_present, across.before.total_present, across.after.total_present]
    exact across.combine (across.visit t n) (across.total rest _)
  | _, .done rest, n => by
    rw [Forest.numbered_done]
    exact across.total rest n
  | _, .more t rest, n => by
    rw [Forest.numbered_more, across.before.total_more, across.after.total_more]
    exact across.combine (across.visit t n) (across.total rest _)
  | _, .noArm rest, n => by
    rw [Forest.numbered_noArm]
    exact across.total rest n
  | _, .arm c t rest, n => by
    rw [Forest.numbered_arm, across.before.total_arm, across.after.total_arm]
    exact across.combine (across.visit c n) (across.combine (across.visit t _) (across.total rest _))

end

end Visitor.Across

end SqlTree

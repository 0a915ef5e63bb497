import SqlTree.Bind

namespace SqlTree

/-- Joining results is associative, and the unit changes nothing. -/
structure Visitor.Lawful {ρ : Type} (v : Visitor Id ρ) : Prop where
  assoc : ∀ a b c, v.combine (v.combine a b) c = v.combine a (v.combine b c)
  unit_left : ∀ a, v.combine v.unit a = a
  unit_right : ∀ a, v.combine a v.unit = a

/-- The joined results of the nodes of a forest. -/
def Forest.total {ρ : Type} (v : Visitor Id ρ) {slots : List Slot} (f : Forest slots) : ρ :=
  (f.visit v).run.foldl v.combine v.unit

theorem Form.slots_of_isWrapper {k : Kind} (form : Form k) (wrapper : form.isWrapper = true) :
    ∃ inner, form.slots = [.one inner] := by
  cases form <;> simp [Form.isWrapper] at wrapper <;> exact ⟨_, rfl⟩

theorem Forest.visit_single {ρ : Type} (v : Visitor Id ρ) {slots : List Slot} {inner : Kind}
    (f : Forest slots) (single : slots = [.one inner]) : ∃ r, (f.visit v).run = [r] := by
  subst single
  cases f with
  | one t rest =>
    cases rest
    exact ⟨(t.visit v).run, rfl⟩

namespace Visitor.Lawful

variable {ρ : Type} {v : Visitor Id ρ} (lawful : v.Lawful)

include lawful

theorem foldl_combine (a : ρ) (results : List ρ) :
    results.foldl v.combine a = v.combine a (results.foldl v.combine v.unit) := by
  induction results generalizing a with
  | nil => exact (lawful.unit_right a).symm
  | cons r rest ih =>
    rw [List.foldl_cons, List.foldl_cons, ih, ih (v.combine v.unit r), lawful.unit_left, lawful.assoc]

theorem foldl_cons (r : ρ) (rest : List ρ) :
    (r :: rest).foldl v.combine v.unit = v.combine r (rest.foldl v.combine v.unit) := by
  rw [List.foldl_cons, lawful.unit_left, lawful.foldl_combine]

theorem gather_eq_total {k : Kind} (form : Form k) (below : Forest form.slots) :
    v.gather form (below.visit v).run = below.total v := by
  by_cases wrapper : form.isWrapper = true
  · obtain ⟨inner, single⟩ := form.slots_of_isWrapper wrapper
    obtain ⟨r, result⟩ := below.visit_single v single
    simp [Visitor.gather, wrapper, Forest.total, result, lawful.unit_left]
  · simp [Visitor.gather, wrapper, Forest.total]

/-- A visit of a node is the visitor's own result from the joined results of the nodes below. -/
theorem visit_node {k : Kind} (form : Form k) (below : Forest form.slots) :
    (Tree.node form below).visit v = v.enter (.node form below) (below.total v) := by
  rw [Tree.visit, ← lawful.gather_eq_total]
  rfl

theorem total_one {k : Kind} {slots : List Slot} (t : Tree k) (rest : Forest slots) :
    (Forest.one t rest).total v = v.combine (t.visit v) (rest.total v) :=
  lawful.foldl_cons _ _

theorem total_present {k : Kind} {slots : List Slot} (t : Tree k) (rest : Forest slots) :
    (Forest.present t rest).total v = v.combine (t.visit v) (rest.total v) :=
  lawful.foldl_cons _ _

theorem total_more {k : Kind} {slots : List Slot} (t : Tree k) (rest : Forest (.many k :: slots)) :
    (Forest.more t rest).total v = v.combine (t.visit v) (rest.total v) :=
  lawful.foldl_cons _ _

theorem total_arm {slots : List Slot} (c t : Tree .expr) (rest : Forest (.arms :: slots)) :
    (Forest.arm c t rest).total v =
      v.combine (c.visit v) (v.combine (t.visit v) (rest.total v)) :=
  (lawful.foldl_cons _ _).trans (congrArg _ (lawful.foldl_cons _ _))

end Visitor.Lawful

/-- A relation between the results of two visitors that holds of the units and passes to joined results. -/
structure Visitor.Joins {ρ σ : Type} (v : Visitor Id ρ) (u : Visitor Id σ) (R : ρ → σ → Prop) : Prop where
  left : v.Lawful
  right : u.Lawful
  unit : R v.unit u.unit
  combine : ∀ {a b c d}, R a b → R c d → R (v.combine a c) (u.combine b d)
  enter : ∀ {k : Kind} (form : Form k) (below : Forest form.slots), R (below.total v) (below.total u) →
    R (v.enter (.node form below) (below.total v)) (u.enter (.node form below) (below.total u))

mutual

/-- Such a relation holds between the results of the two visits of a tree. -/
theorem Visitor.Joins.visit {ρ σ : Type} {v : Visitor Id ρ} {u : Visitor Id σ} {R : ρ → σ → Prop}
    (joins : v.Joins u R) : {k : Kind} → (t : Tree k) → R (t.visit v) (t.visit u)
  | _, .node form below => by
    rw [joins.left.visit_node, joins.right.visit_node]
    exact joins.enter form below (joins.total below)

theorem Visitor.Joins.total {ρ σ : Type} {v : Visitor Id ρ} {u : Visitor Id σ} {R : ρ → σ → Prop}
    (joins : v.Joins u R) : {slots : List Slot} → (f : Forest slots) → R (f.total v) (f.total u)
  | _, .nil => joins.unit
  | _, .one t rest => by
    rw [joins.left.total_one, joins.right.total_one]
    exact joins.combine (joins.visit t) (joins.total rest)
  | _, .absent rest => joins.total rest
  | _, .present t rest => by
    rw [joins.left.total_present, joins.right.total_present]
    exact joins.combine (joins.visit t) (joins.total rest)
  | _, .done rest => joins.total rest
  | _, .more t rest => by
    rw [joins.left.total_more, joins.right.total_more]
    exact joins.combine (joins.visit t) (joins.total rest)
  | _, .noArm rest => joins.total rest
  | _, .arm c t rest => by
    rw [joins.left.total_arm, joins.right.total_arm]
    exact joins.combine (joins.visit c) (joins.combine (joins.visit t) (joins.total rest))

end

theorem Visitor.params_enter {ρ : Type} (unit : ρ) (combine : ρ → ρ → ρ) (each : Param → ρ) {k : Kind}
    (form : Form k) (below : Forest form.slots) (other : k ≠ .param) (result : Id ρ) :
    (Visitor.params unit combine each).enter (.node form below) result = result := by
  cases form with
  | param => exact absurd rfl other
  | _ => rfl

/-- Collects the parameters of a tree. -/
abbrev Visitor.collected : Visitor Id (List Param) :=
  .params [] (· ++ ·) fun p => [p]

theorem Visitor.collected_lawful : Visitor.collected.Lawful :=
  ⟨List.append_assoc, List.nil_append, List.append_nil⟩

end SqlTree

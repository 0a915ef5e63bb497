import SqlTree.Proofs.Filled
import SqlTree.Render.Form

namespace SqlTree

/-- No node has a renderer of its own. -/
def Style.StandardRenderers (style : Style) : Prop :=
  ∀ {k : Kind} (form : Form k) (doc : Doc), style.renderer form doc = doc

/-- The nodes of a forest with their documents. -/
def Forest.drawn (style : Style) {slots : List Slot} (f : Forest slots) : Fill Drawn slots :=
  f.para fun form parts => style.renderer form (Render.standard style form parts)

theorem Tree.doc_node {style : Style} (standard : style.StandardRenderers) {k : Kind} (form : Form k)
    (below : Forest form.slots) :
    (Tree.node form below).doc style = Render.standard style form (below.drawn style) :=
  standard form _

theorem Expr.doc_column {style : Style} (standard : style.StandardRenderers) (c : ColumnRef) :
    (Expr.column c).doc style = style.columnDoc c :=
  (standard _ _).trans (standard _ _)

namespace Forest

variable (style : Style) {k : Kind} {slots : List Slot}

theorem drawn_one (t : Tree k) (rest : Forest slots) :
    (Forest.one t rest).drawn style = (⟨t, t.doc style⟩, rest.drawn style) :=
  rfl

theorem drawn_present (t : Tree k) (rest : Forest slots) :
    (Forest.present t rest).drawn style = (some ⟨t, t.doc style⟩, rest.drawn style) :=
  rfl

theorem drawn_more (t : Tree k) (rest : Forest (.many k :: slots)) :
    (Forest.more t rest).drawn style = (⟨t, t.doc style⟩ :: (rest.drawn style).1, (rest.drawn style).2) :=
  rfl

theorem drawn_arm (c t : Tree .expr) (rest : Forest (.arms :: slots)) :
    (Forest.arm c t rest).drawn style =
      ((⟨c, c.doc style⟩, ⟨t, t.doc style⟩) :: (rest.drawn style).1, (rest.drawn style).2) :=
  rfl

end Forest

/-- What holds of the document of a part that is there holds of all documents of the part. -/
theorem Drawn.forall_mem_values {k : Kind} {part : Option (Drawn k)} {P : Doc → Prop}
    (below : ∀ p ∈ part, P p.value) : ∀ d ∈ (part.map (·.value)).toList, P d := by
  intro d member
  obtain ⟨p, same, rfl⟩ := Option.map_eq_some_iff.mp (Option.mem_toList.mp member)
  exact below p same

/-- A node with its document. -/
def Tree.drawn (style : Style) {k : Kind} (t : Tree k) : Drawn k :=
  ⟨t, t.doc style⟩

/-- What is computed at the nodes of a forest is computed one by one. -/
theorem Forest.para_eq_map {β : Type} (step : {k : Kind} → (form : Form k) → Fill (Part β) form.slots → β)
    {slots : List Slot} (f : Forest slots) :
    f.para step = Fill.map (fun t => ⟨t, t.para step⟩) slots f.contents := by
  cases f with
  | nil => rfl
  | one t rest => exact Prod.ext rfl (rest.para_eq_map step)
  | absent rest => exact Prod.ext rfl (rest.para_eq_map step)
  | present t rest => exact Prod.ext rfl (rest.para_eq_map step)
  | done rest => exact Prod.ext rfl (rest.para_eq_map step)
  | more t rest =>
    have others := rest.para_eq_map step
    rw [Forest.para, others]
    rfl
  | noArm rest => exact Prod.ext rfl (rest.para_eq_map step)
  | arm c t rest =>
    have others := rest.para_eq_map step
    rw [Forest.para, others]
    rfl

/-- The nodes of a forest are drawn one by one. -/
theorem Forest.drawn_eq_map (style : Style) {slots : List Slot} (f : Forest slots) :
    f.drawn style = Fill.map (fun t => t.drawn style) slots f.contents :=
  f.para_eq_map _

theorem Forest.all_drawn {style : Style} {Q : {k : Kind} → Drawn k → Prop} {slots : List Slot}
    {f : Forest slots} :
    Fill.All Q slots (f.drawn style) ↔ Fill.All (fun t => Q (t.drawn style)) slots f.contents := by
  rw [f.drawn_eq_map style]
  exact Fill.all_map

/-- Two drawings of a forest are related when the two drawings of each of its nodes are. -/
theorem Forest.rel_drawn {style other : Style} {R : {k : Kind} → Drawn k → Drawn k → Prop} {slots : List Slot}
    {f : Forest slots} (each : Fill.All (fun t => R (t.drawn style) (t.drawn other)) slots f.contents) :
    Fill.Rel R slots (f.drawn style) (f.drawn other) := by
  rw [f.drawn_eq_map style, f.drawn_eq_map other]
  exact Fill.rel_map each

theorem Forest.drawn_shape (style : Style) {slots : List Slot} (f : Forest slots) :
    Fill.SameShape slots (f.drawn style) f.contents := by
  rw [f.drawn_eq_map style]
  exact Fill.map_sameShape slots f.contents

theorem Forest.drawn_trees (style : Style) {slots : List Slot} (f : Forest slots) :
    Fill.map (fun part => part.tree) slots (f.drawn style) = f.contents := by
  rw [f.drawn_eq_map style]
  exact Fill.map_leftInverse (fun _ => rfl) slots f.contents

end SqlTree

import SqlTree.Bind
import SqlTree.Proofs.DocParams
import SqlTree.Proofs.Drawn
import SqlTree.Proofs.Valid
import SqlTree.Proofs.Visited

namespace SqlTree

/-- Collects parameters in written order. -/
def Visitor.written (nulls : NullSorting) : Visitor Id (List Param) where
  unit := []
  combine := (· ++ ·)
  enter := fun {k} t below =>
    match k, t with
    | .param, .param p => [p]
    | .orderItem, .node (.orderItem dir placement) _ =>
      if (nulls.emulated dir placement).isSome then below.run ++ below.run else below
    | _, _ => below

/-- The parameters of a tree as they are written under a sorting of nulls. -/
def Tree.writtenParams {k : Kind} (t : Tree k) (nulls : NullSorting) : List Param :=
  t.visit (Visitor.written nulls) |>.run

theorem Visitor.written_lawful (nulls : NullSorting) : (Visitor.written nulls).Lawful :=
  ⟨List.append_assoc, List.nil_append, List.append_nil⟩

theorem Visitor.written_enter (nulls : NullSorting) {k : Kind} (form : Form k) (below : Forest form.slots)
    (other : k ≠ .param) (result : Id (List Param)) :
    (Visitor.written nulls).enter (.node form below) result =
      if form.isDoubled nulls then result.run ++ result.run else result := by
  cases form with
  | param => exact absurd rfl other
  | _ => rfl

/-- Where placements of nulls can be written, none is emulated and nothing is written twice. -/
theorem Visitor.written_explicit {nulls : NullSorting} (explicit : nulls.explicit = true) :
    Visitor.written nulls = Visitor.collected := by
  have never : ∀ dir placement, nulls.emulated dir placement = none := by
    intro dir placement
    cases placement <;> simp [NullSorting.emulated, explicit, Option.filter]
  have same : @(Visitor.written nulls).enter = @Visitor.collected.enter := by
    funext k t below
    cases t with
    | node form forest =>
      cases form with
      | orderItem dir placement =>
        change (if (nulls.emulated dir placement).isSome then below.run ++ below.run else below) = below
        rw [never]
        rfl
      | param p =>
        cases forest
        rfl
      | _ => rfl
  change Visitor.mk [] (· ++ ·) @(Visitor.written nulls).enter =
    Visitor.mk [] (· ++ ·) @Visitor.collected.enter
  rw [same]

theorem Tree.writtenParams_explicit {k : Kind} (t : Tree k) {nulls : NullSorting}
    (explicit : nulls.explicit = true) : t.writtenParams nulls = t.params := by
  rw [Tree.writtenParams, Visitor.written_explicit explicit]
  rfl

/-- The document of a row window has no parameters, so it does not matter that it is left out. -/
theorem Tree.drawn_params {style : Style} (standard : style.StandardRenderers) {k : Kind} (t : Tree k) :
    Drawn.params ⟨t, t.doc style⟩ = (t.doc style).params := by
  by_cases window : k = .limitOffset
  · subst window
    cases t with
    | node form below =>
      cases form
      rw [Tree.doc_node standard]
      rfl
  · exact Drawn.params_of_ne _ window

mutual

/-- The document of a valid tree holds the parameters of the tree in the order of a visit. -/
theorem Tree.Valid.params_doc {style : Style} (standard : style.StandardRenderers) :
    {k : Kind} → {t : Tree k} → t.Valid → (t.doc style).params = t.writtenParams style.nulls
  | k, .node form below, valid => by
    obtain ⟨_, shape, others⟩ := valid
    by_cases leaf : k = .param
    · subst leaf
      cases form
      cases below
      rw [Tree.doc_node standard]
      rfl
    · have checked := (form.check_eq_of_shape (below.drawn_shape style)).trans shape
      rw [Tree.doc_node standard, Render.params_standard style form _ checked leaf, Tree.writtenParams,
        (Visitor.written_lawful style.nulls).visit_node, Visitor.written_enter _ _ _ leaf,
        Forest.Valid.params_drawn standard others]
      rfl

theorem Forest.Valid.params_drawn {style : Style} (standard : style.StandardRenderers) :
    {slots : List Slot} → {f : Forest slots} → f.Valid →
    Fill.params slots (f.drawn style) = f.total (Visitor.written style.nulls)
  | _, .nil, _ => rfl
  | _, .one t rest, valid => by
    have first := (t.drawn_params standard).trans (Tree.Valid.params_doc standard valid.1)
    have others := Forest.Valid.params_drawn standard valid.2
    rw [(Visitor.written_lawful style.nulls).total_one, Forest.drawn_one]
    exact congrArg₂ (· ++ ·) first others
  | _, .absent rest, valid => Forest.Valid.params_drawn (f := rest) standard valid
  | _, .present t rest, valid => by
    have first := (t.drawn_params standard).trans (Tree.Valid.params_doc standard valid.1)
    have others := Forest.Valid.params_drawn standard valid.2
    rw [(Visitor.written_lawful style.nulls).total_present, Forest.drawn_present, Fill.params,
      Option.toList_some, List.flatMap_singleton]
    exact congrArg₂ (· ++ ·) first others
  | _, .done rest, valid => Forest.Valid.params_drawn (f := rest) standard valid
  | _, .more t rest, valid => by
    have first := (t.drawn_params standard).trans (Tree.Valid.params_doc standard valid.1)
    have others := Forest.Valid.params_drawn standard valid.2
    rw [(Visitor.written_lawful style.nulls).total_more, Forest.drawn_more, Fill.params,
      List.flatMap_cons, List.append_assoc]
    exact congrArg₂ (· ++ ·) first others
  | _, .noArm rest, valid => Forest.Valid.params_drawn (f := rest) standard valid
  | _, .arm c t rest, valid => by
    have first := (c.drawn_params standard).trans (Tree.Valid.params_doc standard valid.1)
    have second := (t.drawn_params standard).trans (Tree.Valid.params_doc standard valid.2.1)
    have others := Forest.Valid.params_drawn standard valid.2.2
    rw [(Visitor.written_lawful style.nulls).total_arm, Forest.drawn_arm, Fill.params,
      List.flatMap_cons, List.append_assoc, List.append_assoc]
    exact congrArg₂ (· ++ ·) first (congrArg₂ (· ++ ·) second others)

end

end SqlTree

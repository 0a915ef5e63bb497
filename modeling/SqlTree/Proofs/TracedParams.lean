import SqlTree.Proofs.Sources
import SqlTree.Proofs.WrittenParams

namespace SqlTree

/-- Emulation writes parameters again, but leaves out none and writes none that the tree does not have. -/
theorem Tree.mem_writtenParams {k : Kind} {t : Tree k} {nulls : NullSorting} {p : Param} :
    p ∈ t.writtenParams nulls ↔ p ∈ t.params := by
  have joins : (Visitor.written nulls).Joins Visitor.collected fun ws ps => p ∈ ws ↔ p ∈ ps :=
    { left := Visitor.written_lawful nulls
      right := Visitor.collected_lawful
      unit := Iff.rfl
      combine := fun left right =>
        List.mem_append.trans ((or_congr left right).trans List.mem_append.symm)
      enter := fun {k} form below inside => by
        by_cases leaf : k = .param
        · subst leaf
          cases form
          cases below
          exact Iff.rfl
        · rw [Visitor.written_enter _ _ _ leaf, Visitor.params_enter _ _ _ _ _ leaf]
          split
          · exact List.mem_append.trans (or_self_iff.trans inside)
          · exact inside }
  exact joins.visit t

theorem Tree.mem_params_of_source {k : Kind} {t : Tree k} {p : Param}
    (member : .param p ∈ t.sources) : p ∈ t.params := by
  have joins : Visitor.sources.Joins Visitor.collected fun ss ps => ∀ p, .param p ∈ ss → p ∈ ps :=
    { left := Visitor.sources_lawful
      right := Visitor.collected_lawful
      unit := nofun
      combine := fun left right p member => by
        rcases List.mem_append.mp member with first | second
        · exact List.mem_append_left _ (left p first)
        · exact List.mem_append_right _ (right p second)
      enter := fun {k} form below inside => by
        cases form.numbered with
        | literal =>
          match below with
          | .one (.literal value) .nil =>
            change ∀ p, Source.param p ∈ (if value.isNull then [] else [Source.literal value]) → _
            split <;> simp
        | param => exact inside
        | typeName base dims zone =>
          intro p member
          obtain ⟨q, owned, same⟩ := List.mem_map.mp member
          cases same
          have visited := Visitor.collected_lawful.visit_node (.typeName base dims zone) below
          exact visited ▸ owned
        | plain other =>
          by_cases leaf : k = .param
          · subst leaf
            cases form
            cases below
            intro p member
            cases List.mem_singleton.mp member
            exact List.mem_singleton_self _
          · rw [Visitor.sources_enter other leaf, Visitor.params_enter _ _ _ _ _ leaf]
            exact inside }
  exact joins.visit t p member

theorem Param.valueless?_eq_none (p : Param) :
    p.valueless? = none ↔ (p.value = none → p.name?.isSome = true) := by
  obtain ⟨kind, value⟩ := p
  cases value <;> cases kind <;> simp [Param.valueless?, Param.name?]

/-- What stops the preparation of a tree is the first of its parameters to which nothing can be bound. -/
theorem Tree.firstValueless?_eq {k : Kind} (t : Tree k) :
    t.firstValueless? = t.params.findSome? Param.valueless? := by
  have joins : (Visitor.params none Option.or Param.valueless?).Joins Visitor.collected
      fun first ps => first = ps.findSome? Param.valueless? :=
    { left := ⟨fun _ _ _ => Option.or_assoc, fun _ => Option.none_or, fun _ => Option.or_none⟩
      right := Visitor.collected_lawful
      unit := rfl
      combine := fun left right => by
        rw [left, right]
        exact List.findSome?_append.symm
      enter := fun {k} form below inside => by
        by_cases leaf : k = .param
        · subst leaf
          cases form with
          | param p =>
            cases below
            change p.valueless? = [p].findSome? Param.valueless?
            rw [List.findSome?_singleton]
        · rw [Visitor.params_enter _ _ _ _ _ leaf, Visitor.params_enter _ _ _ _ _ leaf]
          exact inside }
  exact joins.visit t

theorem Tree.firstValueless?_eq_none {k : Kind} (t : Tree k) :
    t.firstValueless? = none ↔ ∀ p ∈ t.params, p.valueless? = none := by
  rw [t.firstValueless?_eq, List.findSome?_eq_none_iff]

theorem exists_of_forall₂ {α β : Type} {Q : α → β → Prop} {xs : List α} {ys : List β}
    (related : List.Forall₂ Q xs ys) {y : β} (member : y ∈ ys) : ∃ x ∈ xs, Q x y := by
  induction related with
  | nil => cases member
  | cons first _ ih =>
    rcases List.mem_cons.mp member with rfl | later
    · exact ⟨_, List.mem_cons_self, first⟩
    · obtain ⟨x, before, here⟩ := ih later
      exact ⟨x, List.mem_cons_of_mem _ before, here⟩

/-- A parameter of the numbered tree has its value from a literal that is bound, or value and name from a
parameter of the tree. -/
theorem Tree.numbered_param {k : Kind} {t : Tree k} {n : Numbering} {p : Param}
    (member : p ∈ (t.numbered n).1.params) :
    (∃ value ∈ t.freeLiterals, p.value = some value) ∨
      ∃ q ∈ t.params, p.value = q.value ∧ p.name? = q.name? := by
  obtain ⟨source, given, becomes⟩ := exists_of_forall₂ (t.sources_numbered n) member
  cases source with
  | literal value =>
    refine .inl ⟨value, ?_, becomes.value⟩
    rw [← t.literals_sources]
    exact List.mem_filterMap.mpr ⟨_, given, rfl⟩
  | param q => exact .inr ⟨q, Tree.mem_params_of_source given, becomes.value, becomes.name⟩

end SqlTree

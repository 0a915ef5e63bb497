import SqlTree.Proofs.Alike
import SqlTree.Proofs.Valid

namespace SqlTree

/-- What stands below a numbered node is what stood below it, numbered from somewhere on. -/
theorem Forest.numbered_contents {slots : List Slot} (f : Forest slots) (n : Numbering) :
    Fill.Rel (fun t u => ∃ m, u = (Tree.numbered t m).1) slots f.contents (f.numbered n).1.contents := by
  cases f with
  | nil => exact trivial
  | one t rest =>
    rw [Forest.numbered_one]
    exact ⟨⟨n, rfl⟩, rest.numbered_contents _⟩
  | absent rest =>
    rw [Forest.numbered_absent]
    exact ⟨.none, rest.numbered_contents n⟩
  | present t rest =>
    rw [Forest.numbered_present]
    exact ⟨.some ⟨n, rfl⟩, rest.numbered_contents _⟩
  | done rest =>
    rw [Forest.numbered_done]
    exact ⟨.nil, rest.numbered_contents n⟩
  | more t rest =>
    rw [Forest.numbered_more]
    have others := rest.numbered_contents (t.numbered n).2
    exact ⟨.cons ⟨n, rfl⟩ others.1, others.2⟩
  | noArm rest =>
    rw [Forest.numbered_noArm]
    exact ⟨.nil, rest.numbered_contents n⟩
  | arm c t rest =>
    rw [Forest.numbered_arm]
    have others := rest.numbered_contents (t.numbered (c.numbered n).2).2
    exact ⟨.cons ⟨⟨n, rfl⟩, ⟨_, rfl⟩⟩ others.1, others.2⟩

theorem Tree.numbered_window (t : Tree .limitOffset) (n : Numbering) :
    (t.numbered n).1.window = t.window := by
  cases t with
  | node form below =>
    cases form
    cases below
    rfl

/-- A literal that is numbered stands by itself, as the parameter does that it becomes. -/
theorem Expr.numbered_literal_looks (value : Literal) (n : Numbering) :
    (Expr.literal value).Looks ((Expr.literal value).numbered n).1 := by
  by_cases null : value.isNull = true
  · obtain rfl := Literal.eq_null null
    exact ⟨rfl, rfl⟩
  · rw [Numbering.numbered_literal n (by simpa using null)]
    exact ⟨rfl, rfl⟩

theorem Expr.numbered_param_looks (p : Param) (n : Numbering) :
    (Expr.param p).Looks ((Expr.param p).numbered n).1 := by
  obtain ⟨kind, value⟩ := p
  cases kind <;> exact ⟨rfl, rfl⟩

theorem Query.numbered_isPlain (below : Forest Form.select.slots) (n : Numbering) :
    Query.isPlain (.of .select (.node .select below)) =
      Query.isPlain (.of .select (.node .select (below.numbered n).1)) := by
  obtain ⟨_, _, _, _, _, _, _, _, order, window, lock, _⟩ := below.numbered_contents n
  have windows : ∀ {x y : Option (Tree .limitOffset)},
      Option.Rel (fun t u => ∃ m, u = (Tree.numbered t m).1) x y →
      x.map Tree.window = y.map Tree.window := by
    intro x y related
    cases related with
    | none => rfl
    | some numbered =>
      obtain ⟨m, rfl⟩ := numbered
      exact congrArg some (Tree.numbered_window _ m).symm
  simp only [Query.isPlain_select, SelectParts.isBare_eq, SelectParts.ofFill, isSome_of_rel order,
    isSome_of_rel lock, windows window]

/-- Renderers see no difference between a node and the numbered one. -/
theorem Tree.numbered_looks {k : Kind} (t : Tree k) (n : Numbering) : t.Looks (t.numbered n).1 := by
  obtain ⟨form, below⟩ := t
  cases form.numbered with
  | literal =>
    cases below with
    | one inner rest =>
      obtain ⟨form, none⟩ := inner
      cases form
      cases none
      cases rest
      exact Expr.numbered_literal_looks _ n
  | param =>
    cases below with
    | one inner rest =>
      obtain ⟨form, none⟩ := inner
      cases form
      cases none
      cases rest
      exact Expr.numbered_param_looks _ n
  | typeName => exact trivial
  | plain other =>
    rw [Numbering.numbered_plain n other]
    cases form with
    | expr variant =>
      cases below with
      | one inner rest =>
        cases rest
        rw [Forest.numbered_one]
        cases variant
        case arithmetic =>
          obtain ⟨form, inside⟩ := inner
          cases form
          rw [Numbering.numbered_plain n rfl]
          exact ⟨rfl, rfl⟩
        all_goals exact ⟨rfl, rfl⟩
    | predicate variant =>
      cases below with
      | one inner rest =>
        cases rest
        rw [Forest.numbered_one]
        cases variant
        case connective =>
          obtain ⟨form, inside⟩ := inner
          cases form
          rw [Numbering.numbered_plain n rfl]
          rfl
        all_goals rfl
    | query variant =>
      cases below with
      | one inner rest =>
        cases rest
        rw [Forest.numbered_one]
        cases variant
        case select =>
          obtain ⟨form, inside⟩ := inner
          cases form
          rw [Numbering.numbered_plain n rfl]
          exact Query.numbered_isPlain inside n
        all_goals rfl
    | limitOffset w =>
      cases below
      rfl
    | _ => exact trivial

/-- A relation that holds between the documents of what is numbered and of what it becomes. -/
structure Doc.Congruence.Numbers (style : Style) (R : Doc → Doc → Prop) : Prop extends Doc.Congruence R where
  literal : ∀ {value : Literal} {p : Param}, p.value = some value → R (style.literalDoc value) (style.paramDoc p)
  anonymous : ∀ (index : UInt32) (value : Option Literal),
    R (style.paramDoc ⟨.anonymous, value⟩) (style.paramDoc (.numbered index value))

section

variable {style : Style} {R : Doc → Doc → Prop}

theorem Expr.numbered_literal_doc (standard : style.StandardRenderers)
    (numbers : Doc.Congruence.Numbers style R) (value : Literal) (n : Numbering) :
    R ((Expr.literal value).doc style) (((Expr.literal value).numbered n).1.doc style) := by
  by_cases null : value.isNull = true
  · obtain rfl := Literal.eq_null null
    exact numbers.refl _
  · rw [Numbering.numbered_literal n (by simpa using null)]
    rw [Tree.doc_node standard, Tree.doc_node standard, Forest.drawn_one, Forest.drawn_one]
    change R (Tree.doc style (.node (.literal value) .nil))
      (Tree.doc style (.param (.numbered (n.last + 1) (some value))))
    rw [Tree.doc_node standard, Tree.doc_node standard]
    exact numbers.literal rfl

theorem Expr.numbered_param_doc (standard : style.StandardRenderers)
    (numbers : Doc.Congruence.Numbers style R) (p : Param) (n : Numbering) :
    R ((Expr.param p).doc style) (((Expr.param p).numbered n).1.doc style) := by
  obtain ⟨kind, value⟩ := p
  cases kind with
  | anonymous =>
    rw [Numbering.numbered_anonymous, Tree.doc_node standard, Tree.doc_node standard, Forest.drawn_one,
      Forest.drawn_one]
    change R (Tree.doc style (.param ⟨.anonymous, value⟩))
      (Tree.doc style (.param (.numbered (n.last + 1) value)))
    rw [Tree.doc_node standard, Tree.doc_node standard]
    exact numbers.anonymous _ value
  | named name => exact numbers.refl _
  | ordinal index => exact numbers.refl _

mutual

/-- Such a relation holds between the documents of a tree and of the numbered tree. -/
theorem Tree.numbered_doc (standard : style.StandardRenderers) (numbers : Doc.Congruence.Numbers style R) :
    {k : Kind} → (t : Tree k) → (n : Numbering) → R (t.doc style) ((t.numbered n).1.doc style)
  | _, .node form below, n => by
    cases form.numbered with
    | literal =>
      match below with
      | .one (.literal value) .nil => exact Expr.numbered_literal_doc standard numbers value n
    | param =>
      match below with
      | .one (.param p) .nil => exact Expr.numbered_param_doc standard numbers p n
    | typeName => exact numbers.refl _
    | plain other =>
      rw [Numbering.numbered_plain n other, Tree.doc_node standard, Tree.doc_node standard]
      exact numbers.standard style form (Forest.numbered_drawn standard numbers below n)

theorem Forest.numbered_drawn (standard : style.StandardRenderers)
    (numbers : Doc.Congruence.Numbers style R) : {slots : List Slot} → (f : Forest slots) → (n : Numbering) →
    Fill.Rel (Drawn.Related R) slots (f.drawn style) ((f.numbered n).1.drawn style)
  | _, .nil, _ => trivial
  | _, .one t rest, n => by
    rw [Forest.numbered_one]
    exact ⟨⟨t.numbered_looks n, Tree.numbered_doc standard numbers t n⟩,
      Forest.numbered_drawn standard numbers rest _⟩
  | _, .absent rest, n => by
    rw [Forest.numbered_absent]
    exact ⟨.none, Forest.numbered_drawn standard numbers rest n⟩
  | _, .present t rest, n => by
    rw [Forest.numbered_present]
    exact ⟨.some ⟨t.numbered_looks n, Tree.numbered_doc standard numbers t n⟩,
      Forest.numbered_drawn standard numbers rest _⟩
  | _, .done rest, n => by
    rw [Forest.numbered_done]
    exact ⟨.nil, Forest.numbered_drawn standard numbers rest n⟩
  | _, .more t rest, n => by
    rw [Forest.numbered_more]
    have others := Forest.numbered_drawn standard numbers rest (t.numbered n).2
    exact ⟨.cons ⟨t.numbered_looks n, Tree.numbered_doc standard numbers t n⟩ others.1, others.2⟩
  | _, .noArm rest, n => by
    rw [Forest.numbered_noArm]
    exact ⟨.nil, Forest.numbered_drawn standard numbers rest n⟩
  | _, .arm c t rest, n => by
    rw [Forest.numbered_arm]
    have others := Forest.numbered_drawn standard numbers rest (t.numbered (c.numbered n).2).2
    exact ⟨.cons ⟨⟨c.numbered_looks n, Tree.numbered_doc standard numbers c n⟩,
      ⟨t.numbered_looks _, Tree.numbered_doc standard numbers t _⟩⟩ others.1, others.2⟩

end

end

end SqlTree

import SqlTree.Proofs.TracedParams
import SqlTree.Proofs.Placeholders
import SqlTree.Proofs.ValuesInPlace

namespace SqlTree

/-- An entry in a text that binds nothing: its value, or its name when it has none. -/
def BindParam.spelled (style : Style) (entry : BindParam) : String :=
  match entry.value with
  | some value => style.literalText value
  | none => ":" ++ entry.name.getD ""

theorem Numeric.positional_ne_empty (digits : Nat) (exponent : Int) : positional digits exponent ≠ "" := by
  have some : Nat.toDigits 10 digits ≠ [] := Nat.toDigits_ne_nil
  cases exponent <;> simp [positional, some, String.ofList_eq_empty_iff]

theorem Style.literalText_ne_empty (style : Style) (value : Literal) : style.literalText value ≠ "" := by
  cases value with
  | boolean b =>
    change style.booleans.text b ≠ ""
    cases style.booleans <;> cases b <;> decide
  | integer n =>
    change toString n.toInt ≠ ""
    cases n.toInt with
    | ofNat m =>
      change String.ofList (Nat.toDigits 10 m) ≠ ""
      simp
    | negSucc m =>
      change "-" ++ Nat.repr (m + 1) ≠ ""
      simp
  | decimal d =>
    change (_ : String) ++ Numeric.positional d.coefficient _ ≠ ""
    simp [String.append_eq_empty_iff, Numeric.positional_ne_empty]
  | _ => simp [Style.literalText, Text.quoteString, Text.quoted, DollarString.delimiter]

/-- A text that is not empty is unsigned unless it begins with a minus sign. -/
theorem Text.isUnsigned_of_ne {s : String} (some : s ≠ "") (signless : startsMinus s = false) :
    isUnsigned s = true := by
  unfold isUnsigned
  unfold startsMinus at signless
  cases chars : s.toList with
  | nil => exact absurd (String.toList_eq_nil_iff.mp chars) some
  | cons c rest =>
    rw [chars] at signless
    simpa using signless

theorem Style.paramText_unsigned (style : Style) {p : Param} (bindable : p.valueless? = none)
    (signless : ∀ value ∈ p.value, Text.startsMinus (style.literalText value) = false) :
    Text.isUnsigned (style.paramText p) = true := by
  obtain ⟨kind, value⟩ := p
  cases value with
  | some value => exact Text.isUnsigned_of_ne (style.literalText_ne_empty value) (signless value rfl)
  | none =>
    cases kind with
    | named name => simp [Style.paramText, ParamKind.text, Text.isUnsigned]
    | anonymous | ordinal => cases bindable

/-- Without binding, entries are spelled as the parameters are that they were made for. -/
theorem BindParam.spelled_entries (style : Style) {placeholder : Placeholder} {params : List Param}
    {entries : List BindParam} (entered : List.Forall₂ (Param.EnteredAs placeholder) params entries)
    (bindable : ∀ p ∈ params, p.valueless? = none) :
    params.map style.paramText = entries.map (BindParam.spelled style) := by
  induction entered with
  | nil => rfl
  | @cons p entry _ _ first _ ih =>
    obtain ⟨here, others⟩ := List.forall_mem_cons.mp bindable
    refine congrArg₂ List.cons ?_ (ih others)
    obtain ⟨kind, value⟩ := p
    unfold Style.paramText BindParam.spelled
    rw [first.value]
    cases value with
    | some value => rfl
    | none =>
      rw [first.kept rfl]
      cases kind with
      | named name => rfl
      | anonymous | ordinal => cases here

section

variable {k : Kind} {t : Tree k} (valid : t.Valid) {dialect : Dialect}
  (standard : dialect.toStyle.StandardRenderers)

include valid standard

/-- The parameters that are written are parameters of the numbered tree. -/
theorem Tree.Valid.mem_params_numbered {p : Param}
    (member : p ∈ ((t.numbered .start).1.doc dialect.toStyle).params) :
    p ∈ (t.numbered .start).1.params := by
  rw [Tree.Valid.params_doc standard (Tree.Valid.numbered valid .start)] at member
  exact Tree.mem_writtenParams.mp member

/-- A tree that can be written with its values in place can be bound, if all its parameters can. -/
theorem Tree.Valid.render_bind_of_inline {placeholder : Placeholder} {pretty : Bool} {written : SqlText}
    (inline : (t.render dialect ⟨.inline, placeholder, pretty⟩).result = .ok written)
    (bindable : ∀ p ∈ t.params, p.valueless? = none) :
    ∃ text, (t.render dialect ⟨.bind, .positional, pretty⟩).result = .ok text := by
  have prepared : ∀ p ∈ (t.numbered .start).1.params, p.valueless? = none := by
    intro p member
    rw [Param.valueless?_eq_none]
    obtain ⟨value, _, carried⟩ | ⟨q, owned, value, name⟩ := Tree.numbered_param member
    · simp [carried]
    · rw [value, name, ← Param.valueless?_eq_none]
      exact bindable q owned
  rw [t.render_inline dialect rfl] at inline
  have clear := (t.renderOn_ok_iff ⟨dialect, ⟨.inline, placeholder, pretty⟩⟩ nofun []).mp ⟨_, inline⟩
  rw [t.render_bind dialect rfl]
  dsimp only
  rw [(Tree.firstValueless?_eq_none _).mpr prepared]
  refine (Tree.renderOn_ok_iff _ ⟨dialect, ⟨.bind, .positional, pretty⟩⟩ nofun _).mpr ?_
  have fills := Tree.numbered_doc standard (Doc.Fills.numbers standard) t .start
  have demands := fills.demands fun p member =>
    prepared p (Tree.Valid.mem_params_numbered valid standard member)
  exact List.findSome?_eq_none_iff.mpr fun x member => List.findSome?_eq_none_iff.mp clear x (demands member)

end

/-- Texts with bound values and texts with values in place say the same. A tree that can be written with
its values in place can be bound, if all its parameters have a name or a value. Where both texts can be
written and no value begins with a minus sign, both are woven from one list of fragments: with the
placeholders of the entries, and with their values or names. -/
theorem Tree.Valid.render_inline_bind {k : Kind} {t : Tree k} (valid : t.Valid) {dialect : Dialect}
    (standard : dialect.toStyle.StandardRenderers) (placeholder : Placeholder) (pretty : Bool) :
    let style := dialect.toStyle
    let inline := (t.render dialect ⟨.inline, placeholder, pretty⟩).result
    let bound := (t.render dialect ⟨.bind, .positional, pretty⟩).result
    ((∃ written, inline = .ok written) → (∀ p ∈ t.params, p.value = none → p.name?.isSome = true) →
      ∃ text, bound = .ok text) ∧
    ∀ {written text : SqlText}, inline = .ok written → bound = .ok text →
      (∀ value ∈ t.freeLiterals, Text.startsMinus (style.literalText value) = false) →
      (∀ p ∈ t.params, ∀ value ∈ p.value, Text.startsMinus (style.literalText value) = false) →
      ∃ fragments : List String,
        fragments.length = text.params.length + 1 ∧
        text.sql = Text.woven fragments (text.places .positional) ∧
        written.sql = Text.woven fragments (text.params.map (BindParam.spelled style)) ∧
        ∀ entry ∈ text.params, entry.value = none → entry.name.isSome = true := by
  intro style inline bound
  refine ⟨fun ⟨written, rendered⟩ carried => ?_, fun {written text} atInline atBound literals values => ?_⟩
  · exact Tree.Valid.render_bind_of_inline valid standard rendered fun p member =>
      p.valueless?_eq_none.mpr (carried p member)
  · obtain ⟨entered, sql⟩ := Tree.render_woven atBound
    have bindable : ∀ p ∈ ((t.numbered .start).1.doc style).params, p.valueless? = none := by
      -- each parameter has an entry, and an entry without a value has a name
      intro p member
      obtain ⟨entry, _, entered⟩ := exists_of_forall₂ entered.flip member
      rw [p.valueless?_eq_none]
      intro missing
      rw [← entered.kept missing]
      exact entered.named (.inl missing)
    have unsigned : ∀ p ∈ ((t.numbered .start).1.doc style).params,
        Text.isUnsigned (style.paramText p) = true := by
      intro p member
      -- numbering makes up no values: they are those of literals or of parameters of the tree
      refine style.paramText_unsigned (bindable p member) fun value carried => ?_
      obtain ⟨value', free, same⟩ | ⟨q, owned, same, _⟩ :=
        Tree.numbered_param (Tree.Valid.mem_params_numbered valid standard member)
      · obtain rfl := Option.some.inj (same.symm.trans carried)
        exact literals _ free
      · exact values q owned value (same ▸ carried)
    change (t.render dialect ⟨.inline, placeholder, pretty⟩).result = _ at atInline
    rw [t.render_inline dialect rfl] at atInline
    obtain ⟨w, writes, rfl⟩ := Tree.renderOn_ok atInline
    have fills := Tree.numbered_doc standard (Doc.Fills.numbers standard) t .start
    have tidy := Tree.Valid.tidy_doc standard (Tree.Valid.numbered valid .start)
    have inPlace : Mode.inline ≠ .bind := nofun
    have woven := fills.woven inPlace tidy bindable unsigned writes
    refine ⟨_, (Doc.length_fragments _ _).trans (congrArg (· + 1) entered.length_eq), sql, ?_, ?_⟩
    · rw [← BindParam.spelled_entries style entered bindable]
      exact woven.text.trans String.empty_append
    · intro entry member missing
      obtain ⟨p, _, entered⟩ := exists_of_forall₂ entered member
      exact entered.named (.inl (entered.value.symm.trans missing))

/-- The sort key `-1 + :n`, nulls first. -/
def negatedKey : Tree .orderItem :=
  .node (.orderItem (some .asc) (some .first))
    (.one (Expr.of .arithmetic (.node (.arithmetic .add)
      (.one (Expr.of .negate (.node .negate (.one (Expr.literal (.integer 1)) .nil)))
        (.one (Expr.param ⟨.named "n", none⟩) .nil)))) .nil)

theorem Tree.Valid.render_inline_bind_negated :
    let bound := "CASE WHEN -? + :n IS NULL THEN 0 ELSE 1 END, -? + :n ASC"
    let written := "CASE WHEN -1 + :n IS NULL THEN 0 ELSE 1 END, -1 + :n ASC"
    let entries : List BindParam := [⟨none, some (.integer 1)⟩, ⟨some "n", none⟩]
    negatedKey.Valid ∧
      (negatedKey.render .implicitNulls .inline).result = .ok ⟨written, []⟩ ∧
      (negatedKey.render .implicitNulls (.bind .positional)).result = .ok ⟨bound, entries ++ entries⟩ ∧
      ∃ fragments : List String, fragments.length = 5 ∧
        bound = Text.woven fragments ["?", ":n", "?", ":n"] ∧
        written = Text.woven fragments ["1", ":n", "1", ":n"] := by
  intro bound written entries
  have left : (Expr.negate (.literal (.integer 1))).Valid :=
    Expr.negate_valid.mpr (Expr.literal_valid.mpr rfl)
  have right : (Expr.param ⟨.named "n", none⟩).Valid := Expr.param_valid.mpr (Param.valid_none.mpr (by decide))
  have valid : negatedKey.Valid := OrderItem.make_valid.mpr (Expr.arithmetic_valid.mpr ⟨left, right⟩)
  have standard : Dialect.implicitNulls.toStyle.StandardRenderers := fun _ _ => rfl
  have atInline : (negatedKey.render .implicitNulls .inline).result = .ok ⟨written, []⟩ := by rfl
  have atBound : (negatedKey.render .implicitNulls (.bind .positional)).result =
      .ok ⟨bound, entries ++ entries⟩ := by rfl
  have literals : ∀ value ∈ negatedKey.freeLiterals,
      Text.startsMinus (Dialect.implicitNulls.literalText value) = false := by
    intro value member
    obtain rfl : value = .integer 1 := List.mem_singleton.mp member
    rfl
  have values : ∀ p ∈ negatedKey.params, ∀ value ∈ p.value,
      Text.startsMinus (Dialect.implicitNulls.literalText value) = false := by
    intro p member
    obtain rfl : p = ⟨.named "n", none⟩ := List.mem_singleton.mp member
    nofun
  obtain ⟨fragments, length, marks, texts, _⟩ :=
    (Tree.Valid.render_inline_bind valid standard .positional false).2 atInline atBound literals values
  exact ⟨valid, atInline, atBound, fragments, length, marks, texts⟩

end SqlTree

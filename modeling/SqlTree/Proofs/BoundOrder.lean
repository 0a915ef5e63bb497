import SqlTree.Proofs.Placed
import SqlTree.Proofs.Rendered
import SqlTree.Proofs.Sources
import SqlTree.Proofs.WrittenParams

namespace SqlTree

@[simp]
theorem Writer.params_separator (w : Writer) : w.separator.params = w.params := by
  unfold Writer.separator
  split <;> rfl

@[simp]
theorem Writer.params_openBlock (w : Writer) : w.openBlock.params = w.params := by
  unfold Writer.openBlock
  split <;> rfl

@[simp]
theorem Writer.params_closeBlock (w : Writer) (pretty : Bool) : (w.closeBlock pretty).params = w.params := by
  unfold Writer.closeBlock
  split <;> rfl

/-- Writing a document adds one entry for each of its parameters, in their order. -/
theorem Doc.Writes.entries {ctx : Context} (bind : ctx.options.mode = .bind) {d : Doc} {w v : Writer}
    (writes : d.Writes ctx w v) :
    ∃ entries, v.params = w.params ++ entries ∧
      List.Forall₂ (Param.BoundAs ctx.options.placeholder) d.params entries := by
  induction d generalizing w v with
  | empty =>
    obtain rfl := Doc.Writes.empty_iff.mp writes
    exact ⟨[], (List.append_nil _).symm, .nil⟩
  | text s =>
    obtain rfl := Doc.Writes.text_iff.mp writes
    exact ⟨[], (List.append_nil _).symm, .nil⟩
  | gap =>
    obtain rfl := Doc.Writes.gap_iff.mp writes
    exact ⟨[], by simp, .nil⟩
  | append first second left right =>
    obtain ⟨u, atFirst, atSecond⟩ := Doc.Writes.append_iff.mp writes
    obtain ⟨before, grown, matched⟩ := left atFirst
    obtain ⟨after, grown', matched'⟩ := right atSecond
    refine ⟨before ++ after, ?_, List.rel_append matched matched'⟩
    rw [grown', grown, List.append_assoc]
  | block body ih =>
    obtain ⟨u, atBody, rfl⟩ := Doc.Writes.block_iff.mp writes
    obtain ⟨entries, grown, matched⟩ := ih atBody
    exact ⟨entries, by simpa using grown, matched⟩
  | require construct =>
    obtain ⟨_, rfl⟩ := Doc.Writes.require_iff.mp writes
    exact ⟨[], (List.append_nil _).symm, .nil⟩
  | fail error => exact absurd writes Doc.Writes.not_fail
  | note event =>
    obtain rfl := Doc.Writes.note_iff.mp writes
    exact ⟨[], (List.append_nil _).symm, .nil⟩
  | param p inline =>
    obtain ⟨entry, bound, grown⟩ := (Doc.Writes.placed bind writes).entered
    exact ⟨[entry], grown, .cons bound .nil⟩
  | afterMinus body ih =>
    obtain ⟨u, atBody, rfl⟩ := Doc.Writes.afterMinus_iff.mp writes
    obtain ⟨entries, grown, matched⟩ := ih atBody
    exact ⟨entries, grown, matched⟩

/-- The entry has the value of the source and, unless placeholders are named, the name that the caller
gave to it or none. -/
structure Source.BoundAs (placeholder : Placeholder) (s : Source) (entry : BindParam) : Prop where
  value : entry.value = s.value?
  name : placeholder ≠ .named → entry.name = s.name?

theorem Source.boundAs_all {placeholder : Placeholder} {sources : List Source} {params : List Param}
    {entries : List BindParam} (become : List.Forall₂ Source.Becomes sources params)
    (bound : List.Forall₂ (Param.BoundAs placeholder) params entries) :
    List.Forall₂ (Source.BoundAs placeholder) sources entries := by
  induction become generalizing entries with
  | nil =>
    cases bound
    exact .nil
  | cons first _ ih =>
    cases bound with
    | cons entered others =>
      refine .cons ⟨?_, fun unnamed => ?_⟩ (ih others)
      · rw [entered.value, first.value]
      · rw [entered.name unnamed, first.name]

/-- The entries of a rendering that binds values are the parameters of the prepared tree in written order,
one entry each, where a sort key with an emulated placement of nulls comes twice. Where placements can be
written, the entries are those of the literals and parameters of the tree itself, in order, and every
literal that is bound is there once. -/
theorem Tree.Valid.render_params {k : Kind} {t : Tree k} (valid : t.Valid) {dialect : Dialect}
    (standard : dialect.toStyle.StandardRenderers) {options : RenderOptions} (bind : options.mode = .bind)
    {text : SqlText} (rendered : (t.render dialect options).result = .ok text) :
    (∃ tree?, t.prepare = .ok tree? ∧
      List.Forall₂ (Param.BoundAs options.placeholder)
        ((tree?.getD t).writtenParams dialect.nulls) text.params) ∧
    (dialect.nulls.explicit = true →
      List.Forall₂ (Source.BoundAs options.placeholder) t.sources text.params ∧
        t.sources.filterMap Source.literal? = t.freeLiterals) := by
  obtain ⟨tree?, prepared, numbered, written⟩ := Tree.render_bind_ok bind rendered
  obtain ⟨w, writes, rfl⟩ := Tree.renderOn_ok written
  have validNow : (tree?.getD t).Valid := numbered ▸ Tree.Valid.numbered valid .start
  obtain ⟨entries, grown, matched⟩ := writes.entries bind
  obtain rfl : w.params = entries := grown
  rw [Tree.Valid.params_doc standard validNow] at matched
  refine ⟨⟨tree?, prepared, matched⟩, fun explicit => ⟨?_, t.literals_sources⟩⟩
  rw [Tree.writtenParams_explicit _ explicit, numbered] at matched
  exact Source.boundAs_all (t.sources_numbered .start) matched

/-- The standard dialect without a notation for the placement of nulls. -/
def Dialect.implicitNulls : Dialect :=
  { Dialect.standard with nulls := ⟨false, .last, .first⟩ }

/-- The sort key `1 + :n`, nulls first. -/
def nullsFirstKey : Tree .orderItem :=
  .node (.orderItem (some .asc) (some .first))
    (.one (Expr.of .arithmetic (.node (.arithmetic .add)
      (.one (Expr.literal (.integer 1)) (.one (Expr.param ⟨.named "n", some (.integer 2)⟩) .nil)))) .nil)

/-- Both values of the key are bound twice. -/
theorem Tree.Valid.render_params_emulated :
    let entries : List BindParam := [⟨none, some (.integer 1)⟩, ⟨some "n", some (.integer 2)⟩]
    nullsFirstKey.Valid ∧
      (nullsFirstKey.render .implicitNulls (.bind .ordinal)).result =
        .ok ⟨"CASE WHEN $1 + $2 IS NULL THEN 0 ELSE 1 END, $3 + $4 ASC", entries ++ entries⟩ ∧
      ∃ tree?, nullsFirstKey.prepare = .ok tree? ∧
        List.Forall₂ (Param.BoundAs .ordinal)
          ((tree?.getD nullsFirstKey).writtenParams Dialect.implicitNulls.nulls) (entries ++ entries) := by
  intro entries
  have left : (Expr.literal (.integer 1)).Valid := Expr.literal_valid.mpr rfl
  have right : (Expr.param ⟨.named "n", some (.integer 2)⟩).Valid :=
    Expr.param_valid.mpr (Param.valid_some.mpr ⟨by decide, rfl⟩)
  have valid : nullsFirstKey.Valid := OrderItem.make_valid.mpr (Expr.arithmetic_valid.mpr ⟨left, right⟩)
  have standard : Dialect.implicitNulls.toStyle.StandardRenderers := fun _ _ => rfl
  have bind : (RenderOptions.bind .ordinal).mode = .bind := rfl
  have rendered : (nullsFirstKey.render .implicitNulls (.bind .ordinal)).result =
      .ok ⟨"CASE WHEN $1 + $2 IS NULL THEN 0 ELSE 1 END, $3 + $4 ASC",
        [⟨none, some (.integer 1)⟩, ⟨some "n", some (.integer 2)⟩, ⟨none, some (.integer 1)⟩,
          ⟨some "n", some (.integer 2)⟩]⟩ := by rfl
  exact ⟨valid, rendered, (Tree.Valid.render_params valid standard bind rendered).1⟩

end SqlTree

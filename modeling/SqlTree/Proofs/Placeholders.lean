import SqlTree.Proofs.ApartForms
import SqlTree.Proofs.Demands
import SqlTree.Proofs.WovenText

namespace SqlTree

/-- The placeholders of a text in a given notation. -/
def SqlText.places (placeholder : Placeholder) (text : SqlText) : List String :=
  text.params.mapIdx fun i entry => entry.shown placeholder (i + 1)

/-- A rendering that binds values weaves the fragments of the numbered tree with the placeholders of its
entries. -/
theorem Tree.render_woven {k : Kind} {t : Tree k} {dialect : Dialect} {placeholder : Placeholder}
    {pretty : Bool} {text : SqlText}
    (rendered : (t.render dialect ⟨.bind, placeholder, pretty⟩).result = .ok text) :
    let doc := (t.numbered .start).1.doc dialect.toStyle
    List.Forall₂ (Param.EnteredAs placeholder) doc.params text.params ∧
      text.sql = Text.woven (doc.fragments ⟨pretty, 0⟩) (text.places placeholder) := by
  obtain ⟨tree?, _, numbered, written⟩ := Tree.render_bind_ok rfl rendered
  obtain ⟨w, writes, rfl⟩ := Tree.renderOn_ok written
  rw [numbered] at writes
  obtain ⟨entries, bound⟩ := writes.bound rfl
  obtain rfl : w.params = entries := bound.params
  have places : BindParam.shownAfter placeholder 0 w.params = w.finish.places placeholder := by
    simp only [BindParam.shownAfter, Nat.zero_add]
    rfl
  have text := bound.woven.text.trans String.empty_append
  exact ⟨bound.entered, text.trans (congrArg _ places)⟩

/-- Unless placeholders are named, their notation does not decide whether a rendering fails, nor how. -/
theorem Tree.render_error_iff {k : Kind} (t : Tree k) (dialect : Dialect) (pretty : Bool) (e : Error) :
    (t.render dialect ⟨.bind, .positional, pretty⟩).result = .error e ↔
      (t.render dialect ⟨.bind, .ordinal, pretty⟩).result = .error e := by
  rw [t.render_bind dialect rfl, t.render_bind dialect rfl]
  dsimp only
  cases (t.numbered .start).1.firstValueless? with
  | some p => exact Iff.rfl
  | none =>
    have positional := Tree.renderOn_error_iff (t.numbered .start).1
      ⟨dialect, ⟨.bind, .positional, pretty⟩⟩ nofun (t.numbered .start).1.callerNames e
    have ordinal := Tree.renderOn_error_iff (t.numbered .start).1
      ⟨dialect, ⟨.bind, .ordinal, pretty⟩⟩ nofun (t.numbered .start).1.callerNames e
    exact positional.trans ordinal.symm

/-- Entries of the same parameter in two notations: the value is the same, and without a value the name
that is shown is the same too. -/
structure BindParam.SameShown (a b : BindParam) : Prop where
  value : a.value = b.value
  name : a.value = none → a.name = b.name ∧ a.name.isSome = true

theorem BindParam.sameShown {first second : Placeholder} {params : List Param} {entries others : List BindParam}
    (left : List.Forall₂ (Param.EnteredAs first) params entries)
    (right : List.Forall₂ (Param.EnteredAs second) params others) :
    List.Forall₂ BindParam.SameShown entries others := by
  induction left generalizing others with
  | nil =>
    cases right
    exact .nil
  | cons entered _ ih =>
    cases right with
    | cons entered' right =>
      refine .cons ⟨entered.value.trans entered'.value.symm, fun empty => ?_⟩ (ih right)
      have absent := entered.value.symm.trans empty
      exact ⟨(entered.kept absent).trans (entered'.kept absent).symm, entered.named (.inl absent)⟩

/-- Unless placeholders are named, the entries are the parameters with the names that the caller gave. -/
theorem BindParam.eq_of_unnamed {placeholder : Placeholder} (unnamed : placeholder ≠ .named)
    {params : List Param} {entries : List BindParam}
    (entered : List.Forall₂ (Param.EnteredAs placeholder) params entries) :
    entries = params.map fun p => ⟨p.name?, p.value⟩ := by
  induction entered with
  | nil => rfl
  | cons first _ ih =>
    rw [List.map_cons, ← ih, ← first.value, ← first.name unnamed]

theorem BindParam.all_named {params : List Param} {entries : List BindParam}
    (entered : List.Forall₂ (Param.EnteredAs .named) params entries) :
    ∀ entry ∈ entries, entry.name.isSome = true := by
  induction entered with
  | nil => nofun
  | cons first _ ih => exact List.forall_mem_cons.mpr ⟨first.named (.inr rfl), ih⟩

/-- The notations of placeholders differ in the placeholders only. Marks and numbers are possible for the
same trees. Where all three notations are, one list of fragments is woven with the placeholders of each,
the entries have the same values, and no fragment runs into the placeholder before it. -/
theorem Tree.render_placeholders {k : Kind} (t : Tree k) {dialect : Dialect}
    (standard : dialect.toStyle.StandardRenderers) (pretty : Bool) :
    let rendered := fun placeholder => (t.render dialect ⟨.bind, placeholder, pretty⟩).result
    (∀ e, rendered .positional = .error e ↔ rendered .ordinal = .error e) ∧
      ∀ {positional ordinal named : SqlText}, rendered .positional = .ok positional →
        rendered .ordinal = .ok ordinal → rendered .named = .ok named →
        ∃ fragments : List String,
          fragments.length = positional.params.length + 1 ∧
          positional.sql = Text.woven fragments (positional.places .positional) ∧
          ordinal.sql = Text.woven fragments (ordinal.places .ordinal) ∧
          named.sql = Text.woven fragments (named.places .named) ∧
          positional.params = ordinal.params ∧
          List.Forall₂ BindParam.SameShown positional.params named.params ∧
          (∀ entry ∈ named.params, entry.name.isSome = true) ∧
          ∀ f ∈ fragments.tail, f = "" ∨ Text.isSeparating f = true := by
  intro rendered
  refine ⟨t.render_error_iff dialect pretty, fun atPositional atOrdinal atNamed => ?_⟩
  -- the numbered tree does not depend on the notation, so its fragments serve all three texts
  obtain ⟨entries, positional⟩ := Tree.render_woven atPositional
  obtain ⟨numbers, ordinal⟩ := Tree.render_woven atOrdinal
  obtain ⟨names, named⟩ := Tree.render_woven atNamed
  have length := Doc.length_fragments ((t.numbered .start).1.doc dialect.toStyle) ⟨pretty, 0⟩
  obtain ⟨_, _, passed⟩ := Tree.apart_doc standard (t.numbered .start).1 ⟨pretty, 0⟩ false (Bool.le_refl _)
  refine ⟨_, length.trans (congrArg (· + 1) entries.length_eq), positional, ordinal, named, ?_,
    BindParam.sameShown entries names, BindParam.all_named names, Text.touchAll_tail passed⟩
  have marks : Placeholder.positional ≠ .named := nofun
  have counts : Placeholder.ordinal ≠ .named := nofun
  rw [BindParam.eq_of_unnamed marks entries, BindParam.eq_of_unnamed counts numbers]

/-- A negated number, a parameter that is bound by its name later, and a string. -/
def boundRow : Tree .row :=
  .node .row
    (.more (Expr.of .negate (.node .negate (.one (Expr.literal (.integer 1)) .nil)))
      (.more (Expr.param ⟨.named "n", none⟩) (.more (Expr.literal (.string "s")) (.done .nil))))

theorem Tree.render_placeholders_row :
    let entries : List BindParam := [⟨none, some (.integer 1)⟩, ⟨some "n", none⟩, ⟨none, some (.string "s")⟩]
    let names : List BindParam :=
      [⟨some "p1", some (.integer 1)⟩, ⟨some "n", none⟩, ⟨some "p3", some (.string "s")⟩]
    (boundRow.render .standard (.bind .positional)).result = .ok ⟨"(-?, :n, ?)", entries⟩ ∧
      (boundRow.render .standard (.bind .ordinal)).result = .ok ⟨"(-$1, :n, $3)", entries⟩ ∧
      (boundRow.render .standard (.bind .named)).result = .ok ⟨"(-:p1, :n, :p3)", names⟩ ∧
      ∃ fragments : List String,
        fragments.length = 4 ∧
        "(-?, :n, ?)" = Text.woven fragments ["?", ":n", "?"] ∧
        "(-$1, :n, $3)" = Text.woven fragments ["$1", ":n", "$3"] ∧
        "(-:p1, :n, :p3)" = Text.woven fragments [":p1", ":n", ":p3"] ∧
        ∀ f ∈ fragments.tail, f = "" ∨ Text.isSeparating f = true := by
  intro entries names
  have standard : Dialect.standard.toStyle.StandardRenderers := fun _ _ => rfl
  have positional : (boundRow.render .standard (.bind .positional)).result =
      .ok ⟨"(-?, :n, ?)", entries⟩ := by rfl
  have ordinal : (boundRow.render .standard (.bind .ordinal)).result =
      .ok ⟨"(-$1, :n, $3)", entries⟩ := by rfl
  have named : (boundRow.render .standard (.bind .named)).result = .ok ⟨"(-:p1, :n, :p3)", names⟩ := by rfl
  obtain ⟨fragments, length, marks, numbers, words, _, _, _, apart⟩ :=
    (boundRow.render_placeholders standard false).2 positional ordinal named
  exact ⟨positional, ordinal, named, fragments, length, marks, numbers, words, apart⟩

end SqlTree

import SqlTree.Proofs.Rendered

namespace SqlTree

/-- One set of capabilities has no feature that the other lacks. -/
instance : HasSubset Capabilities :=
  ⟨fun less more => ∀ feature, less.supports feature = true → more.supports feature = true⟩

theorem Capabilities.subset_all (caps : Capabilities) : caps ⊆ Capabilities.all :=
  fun _ _ => rfl

section Widening

variable {style : Style} {options : RenderOptions} {less more : Capabilities}

/-- With more capabilities a document leaves the page that it left before. -/
theorem Doc.Writes.widen (within : less ⊆ more) {d : Doc} {w v : Writer}
    (writes : d.Writes ⟨⟨style, less⟩, options⟩ w v) : d.Writes ⟨⟨style, more⟩, options⟩ w v := by
  induction d generalizing w v with
  | empty => exact empty_iff.mpr (empty_iff.mp writes)
  | text s => exact text_iff.mpr (text_iff.mp writes)
  | gap => exact gap_iff.mpr (gap_iff.mp writes)
  | append first second left right =>
    obtain ⟨u, before, after⟩ := append_iff.mp writes
    exact append_iff.mpr ⟨u, left before, right after⟩
  | block body ih =>
    obtain ⟨u, inside, rfl⟩ := block_iff.mp writes
    exact block_iff.mpr ⟨u, ih inside, rfl⟩
  | require construct =>
    obtain ⟨has, rfl⟩ := require_iff.mp writes
    exact require_iff.mpr ⟨within _ has, rfl⟩
  | fail error => exact absurd writes not_fail
  | note event => exact note_iff.mpr (note_iff.mp writes)
  | param p inline ih =>
    -- binding looks at the options alone
    by_cases bind : options.mode = .bind
    · have bound : (Context.bindParam ⟨⟨style, less⟩, options⟩ p).outcome w = (.ok (), v) :=
        (param_bind_iff bind).mp writes
      exact (param_bind_iff bind).mpr bound
    · exact (param_inline_iff bind).mpr (ih ((param_inline_iff bind).mp writes))
  | afterMinus body ih =>
    obtain ⟨u, inside, rfl⟩ := afterMinus_iff.mp writes
    exact afterMinus_iff.mpr ⟨u, ih inside, rfl⟩

/-- A rendering that succeeds with some capabilities has the same result with more of them. -/
theorem Tree.render_widen (within : less ⊆ more) {k : Kind} {t : Tree k} {text : SqlText}
    (rendered : (t.render ⟨style, less⟩ options).result = .ok text) :
    (t.render ⟨style, more⟩ options).result = .ok text := by
  have onPage : ∀ {tree : Tree k} {reserved : List String},
      (tree.renderOn ⟨⟨style, less⟩, options⟩ reserved).result = .ok text →
      (tree.renderOn ⟨⟨style, more⟩, options⟩ reserved).result = .ok text := by
    intro tree reserved written
    obtain ⟨w, writes, rfl⟩ := Tree.renderOn_ok written
    have wider : (tree.doc style).Writes ⟨⟨style, more⟩, options⟩
        (Context.page ⟨⟨style, less⟩, options⟩ reserved) w := writes.widen within
    rw [Tree.renderOn_result]
    exact congrArg Outcome.result wider
  cases mode : options.mode with
  | inline =>
    rw [t.render_inline _ mode] at rendered ⊢
    exact onPage rendered
  | bind =>
    rw [t.render_bind _ mode] at rendered ⊢
    dsimp only at rendered ⊢
    split at rendered
    · cases rendered
    · exact onPage rendered

end Widening

/-- With more capabilities no rendering is lost, and two dialects that differ in capabilities only never
render one tree in two ways. -/
theorem Tree.render_capabilities {k : Kind} (t : Tree k) (style : Style) (options : RenderOptions)
    (caps others : Capabilities) :
    (caps ⊆ others → ∀ text, (t.render ⟨style, caps⟩ options).result = .ok text →
      ∃ text', (t.render ⟨style, others⟩ options).result = .ok text') ∧
    ∀ text text', (t.render ⟨style, caps⟩ options).result = .ok text →
      (t.render ⟨style, others⟩ options).result = .ok text' → text = text' := by
  constructor
  · intro within text rendered
    exact ⟨text, Tree.render_widen within rendered⟩
  · -- neither set need hold the other, but the set of all features holds both
    intro text text' first second
    have firstWide := Tree.render_widen caps.subset_all first
    have secondWide := Tree.render_widen others.subset_all second
    exact Except.ok.inj (firstWide.symm.trans secondWide)

/-- `ARRAY[B'10']` -/
def bitArray : Expr :=
  .of .array (.node .array (.more (Expr.literal (.bitString "10")) (.done .nil)))

/-- Two constructs at two depths, and two sets of capabilities of which neither holds the other. -/
theorem Tree.render_capabilities_array :
    let few := Capabilities.ofList [.arrayLiteral, .bitStringLiteral, .lateral]
    let other := Capabilities.ofList [.arrayLiteral, .bitStringLiteral, .lockShare]
    let text : SqlText := ⟨"ARRAY[B\'10\']", []⟩
    few ⊆ Capabilities.standard ∧ ¬few ⊆ other ∧ ¬other ⊆ few ∧
      (bitArray.render ⟨.standard, few⟩ .inline).result = .ok text ∧
      (∃ text', (bitArray.render ⟨.standard, .standard⟩ .inline).result = .ok text') ∧
      (bitArray.render ⟨.standard, other⟩ .inline).result = .ok text ∧
      ∀ text', (bitArray.render ⟨.standard, other⟩ .inline).result = .ok text' → text = text' := by
  intro few other text
  have within : few ⊆ Capabilities.standard := by
    intro feature has
    cases feature <;> first | rfl | cases has
  have first : (bitArray.render ⟨.standard, few⟩ .inline).result = .ok text := by rfl
  have second : (bitArray.render ⟨.standard, other⟩ .inline).result = .ok text := by rfl
  have lateral : ¬few ⊆ other := fun sub => nomatch sub .lateral rfl
  have share : ¬other ⊆ few := fun sub => nomatch sub .lockShare rfl
  exact ⟨within, lateral, share, first,
    (Tree.render_capabilities bitArray .standard .inline few .standard).1 within text first,
    second,
    fun text' => (Tree.render_capabilities bitArray .standard .inline few other).2 text text' first⟩

end SqlTree

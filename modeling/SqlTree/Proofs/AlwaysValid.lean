import SqlTree.Proofs.EveryTerm
import SqlTree.Proofs.Rendered

namespace SqlTree

/-- What a tree is prepared to is valid. -/
theorem Tree.Valid.prepare {k : Kind} {t : Tree k} (valid : t.Valid) :
    Gives (fun tree? => (tree?.getD t).Valid) t.prepare := by
  have numbered : (t.number.tree?.getD t).Valid := by
    rw [t.number_getD]
    exact valid.numbered .start
  unfold Tree.prepare
  dsimp only
  split
  · exact .error _
  · exact .ok numbered

/-- Decoding accepts valid trees only. Checked constructors, composing, drafting a SELECT, preparing for
binding and editing give valid trees from valid ones. So set operations are written with all their terms, each
once and in order, in every style and on every page. -/
theorem Tree.valid_however_obtained :
    (∀ (k : Kind) (j : Json), Gives Tree.Valid (Tree.ofJson k j)) ∧ DecodedParts ∧ CheckedConstructors ∧
    (∀ (lhs : Query) (op : SetOperator) (rhs : Query), lhs.Valid → rhs.Valid →
      (Query.compose lhs op rhs).Valid) ∧
    (∀ d : SelectDraft, Relation.ReflTransGen SelectDraft.Step .empty d → d.build.Valid) ∧
    (∀ (k : Kind) (t : Tree k), t.Valid → Gives (fun tree? => (tree?.getD t).Valid) t.prepare) ∧
    (∀ (σ : Type) (r : Editor (StateM σ)), r.KeepsValid → ∀ (k : Kind) (t : Tree k), t.Valid →
      ∀ s, ((t.edited r).run s).1.Valid) ∧
    (∀ t : Tree .composite, t.Valid → ∀ style : Style,
      t.doc style = style.renderer t.form ((Composite.ofTree t).doc style) ∧
      ∀ (ctx : Context) (w v : Writer),
        ((Composite.ofTree t).doc style).Writes ctx w v ↔ (Composite.ofTree t).Written style ctx w v) := by
  refine ⟨Tree.ofJson_gives, decodedParts, checkedConstructors, ?_, ?_, ?_, ?_, ?_⟩
  · intro lhs op rhs first second
    exact Query.compose_valid first second op
  · intro d run
    exact (SelectDraft.run_valid run).build
  · intro k t valid
    exact valid.prepare
  · intro σ r keeps k t valid s
    exact Tree.Valid.edited keeps valid s
  · intro t valid style
    have parts : (Composite.ofTree t).Valid := Composite.ofTree_valid.mpr valid
    exact ⟨t.doc_composite style, fun ctx w v => parts.writes_iff⟩

/-- `SELECT *` -/
def allRows : Query :=
  .of .select SelectDraft.empty.build

/-- `SELECT * FOR UPDATE` -/
def lockedRows : Query :=
  .of .select (SelectDraft.empty.setLocking .forUpdate).build

/-- The terms that come out of composing from the left. -/
def composedRows : Composite :=
  ⟨[allRows, lockedRows, allRows], [.union, .exceptAll], none, none⟩

/-- The second operator extends the set operation, and all terms are written. -/
theorem Tree.valid_however_obtained_composed :
    (allRows.compose .union lockedRows).compose .exceptAll allRows = Query.ofComposite composedRows ∧
      composedRows.toTree.Valid ∧
      composedRows.Written Dialect.standard.toStyle ⟨.standard, .inline⟩ (.blank false)
        ((Writer.blank false).write "SELECT * UNION (SELECT * FOR UPDATE) EXCEPT ALL SELECT *") := by
  obtain ⟨_, _, _, composed, drafted, _, _, written⟩ := Tree.valid_however_obtained
  have same : (allRows.compose .union lockedRows).compose .exceptAll allRows =
      Query.ofComposite composedRows := by rfl
  have valid : composedRows.toTree.Valid := by
    have lock : Locking.forUpdate.Valid := ⟨rfl, nofun⟩
    have first : allRows.Valid := Query.of_valid.mpr (drafted _ .refl)
    have second : lockedRows.Valid := Query.of_valid.mpr (drafted _ (.single (.locking _ lock)))
    have whole := composed _ .exceptAll _ (composed _ .union _ first second) first
    rw [same] at whole
    exact Query.of_valid.mp whole
  have run : (composedRows.doc Dialect.standard.toStyle).Writes ⟨.standard, .inline⟩ (.blank false)
      ((Writer.blank false).write "SELECT * UNION (SELECT * FOR UPDATE) EXCEPT ALL SELECT *") := by rfl
  have parts := (written composedRows.toTree valid Dialect.standard.toStyle).2 ⟨.standard, .inline⟩
  rw [Composite.ofTree_toTree] at parts
  exact ⟨same, valid, (parts _ _).mp run⟩

end SqlTree

import SqlTree.Proofs.Numbered
import SqlTree.Proofs.Writing

namespace SqlTree

/-- The finished text of a successful outcome. -/
def Outcome.result (r : Except Error Unit × Writer) : Except Error SqlText :=
  r.1.map fun _ => r.2.finish

/-- The page on which a tree is written. -/
def Context.page (ctx : Context) (reserved : List String) : Writer :=
  (Writer.blank ctx.options.pretty).reserve reserved

theorem Tree.renderOn_result {k : Kind} (t : Tree k) (ctx : Context) (reserved : List String) :
    (t.renderOn ctx reserved).result =
      Outcome.result (((t.doc ctx.dialect.toStyle).write ctx).outcome (ctx.page reserved)) := by
  change (match (t.write ctx).outcome (ctx.page reserved) with
    | (.ok (), w) => (⟨.ok w.finish, w.log⟩ : Report)
    | (.error e, w) => ⟨.error e, w.log⟩).result = _
  unfold Tree.write
  rcases ((t.doc ctx.dialect.toStyle).write ctx).outcome (ctx.page reserved) with ⟨_ | _, _⟩ <;> rfl

theorem Tree.render_inline {k : Kind} (t : Tree k) (dialect : Dialect) {options : RenderOptions}
    (inline : options.mode = .inline) :
    (t.render dialect options).result = (t.renderOn ⟨dialect, options⟩ []).result := by
  unfold Tree.render
  rw [inline]

/-- The result of a rendering that binds values: the numbered tree is written on a page where the
caller's names are reserved, unless nothing can be bound to some parameter. -/
theorem Tree.render_bind {k : Kind} (t : Tree k) (dialect : Dialect) {options : RenderOptions}
    (bind : options.mode = .bind) :
    (t.render dialect options).result =
      let tree := (t.numbered .start).1
      match tree.firstValueless? with
      | some p => .error (.unresolved p)
      | none => (tree.renderOn ⟨dialect, options⟩ tree.callerNames).result := by
  unfold Tree.render Tree.prepare
  rw [bind, ← Tree.number_getD]
  dsimp only
  cases (t.number.tree?.getD t).firstValueless? <;> rfl

/-- A successful rendering on a page of its own is a successful writing of the document. -/
theorem Tree.renderOn_ok {k : Kind} {t : Tree k} {ctx : Context} {reserved : List String} {text : SqlText}
    (rendered : (t.renderOn ctx reserved).result = .ok text) :
    ∃ w, (t.doc ctx.dialect.toStyle).Writes ctx (ctx.page reserved) w ∧ text = w.finish := by
  rw [Tree.renderOn_result] at rendered
  unfold Doc.Writes
  generalize Writing.outcome _ _ = r at rendered
  obtain ⟨_ | _, w⟩ := r
  · cases rendered
  · cases rendered
    exact ⟨w, rfl, rfl⟩

/-- A successful rendering that binds values writes the tree that was prepared. -/
theorem Tree.render_bind_ok {k : Kind} {t : Tree k} {dialect : Dialect} {options : RenderOptions}
    {text : SqlText} (bind : options.mode = .bind) (rendered : (t.render dialect options).result = .ok text) :
    ∃ tree?, t.prepare = .ok tree? ∧ tree?.getD t = (t.numbered .start).1 ∧
      ((tree?.getD t).renderOn ⟨dialect, options⟩ (tree?.getD t).callerNames).result = .ok text := by
  rw [t.render_bind dialect bind] at rendered
  cases valueless : (t.numbered .start).1.firstValueless? with
  | some p =>
    simp only [valueless] at rendered
    cases rendered
  | none =>
    simp only [valueless] at rendered
    refine ⟨t.number.tree?, ?_, t.number_getD, rendered⟩
    simp only [Tree.prepare, t.number_getD, valueless]

end SqlTree

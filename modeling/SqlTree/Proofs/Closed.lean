import SqlTree.Proofs.Rendered
import SqlTree.Proofs.SoundForms

namespace SqlTree

open Scan

/-- What a sound document leaves on an empty page is closed. -/
theorem Doc.Sound.isClosed {ctx : Context} {d : Doc} (sound : d.Sound ctx) {reserved : List String}
    {w : Writer} (writes : d.Writes ctx (ctx.page reserved) w) : Text.isClosed w.text = true := by
  obtain ⟨added, grown, leads⟩ := sound [] _ _ writes
  obtain rfl : w.text = added := grown.trans String.empty_append
  obtain ⟨s, ran, outer, balanced⟩ := leads ⟨.clear, []⟩ rfl
  simp [Text.isClosed, ran, outer, balanced]

/-- In a dialect that guards the text of the caller, every text that a valid tree is rendered as is
closed, whether values are written or bound, in any layout. -/
theorem Tree.Valid.render_isClosed {k : Kind} {t : Tree k} (valid : t.Valid) {dialect : Dialect}
    (guarded : dialect.Guarded) {options : RenderOptions} {text : SqlText}
    (rendered : (t.render dialect options).result = .ok text) : Text.isClosed text.sql = true := by
  have closed : ∀ {tree : Tree k} {reserved : List String}, tree.Valid →
      (tree.renderOn ⟨dialect, options⟩ reserved).result = .ok text → Text.isClosed text.sql = true := by
    intro tree reserved sane written
    obtain ⟨w, writes, rfl⟩ := Tree.renderOn_ok written
    exact (Tree.Valid.sound_doc guarded sane).isClosed writes
  cases mode : options.mode with
  | inline =>
    rw [t.render_inline dialect mode] at rendered
    exact closed valid rendered
  | bind =>
    obtain ⟨tree?, _, numbered, written⟩ := Tree.render_bind_ok mode rendered
    exact closed (numbered ▸ Tree.Valid.numbered valid .start) written

/-- A negated negative number, a name with a quote and a comment in it, and a string that tries to end
its own token and the statement. -/
def hostileRow : Tree .row :=
  .node .row
    (.more (Expr.of .negate (.node .negate (.one (Expr.literal (.integer (-1))) .nil)))
      (.more (Expr.of .column (.node (.column ⟨none, ⟨"a\"--", .none⟩⟩) .nil))
        (.more (Expr.literal (.string "\'; DROP TABLE t; /*")) (.done .nil))))

theorem Tree.Valid.render_isClosed_hostile :
    hostileRow.Valid ∧
      (hostileRow.render .standard .inline).result =
        .ok ⟨"(-(-1), \"a\"\"--\", \'\'\'; DROP TABLE t; /*\')", []⟩ ∧
      Text.isClosed "(-(-1), \"a\"\"--\", \'\'\'; DROP TABLE t; /*\')" = true := by
  have negated : (Expr.negate (.literal (.integer (-1)))).Valid :=
    Expr.negate_valid.mpr (Expr.literal_valid.mpr rfl)
  have named : (Expr.column ⟨none, ⟨"a\"--", .none⟩⟩).Valid := Expr.column_valid.mpr ⟨nofun, by rfl⟩
  have valid : hostileRow.Valid :=
    Row.node_valid.mpr ⟨negated, named, Expr.literal_valid.mpr rfl, trivial⟩
  have guarded : Dialect.standard.Guarded := ⟨fun _ _ => rfl, rfl, rfl, rfl, rfl, rfl, rfl⟩
  have rendered : (hostileRow.render .standard .inline).result =
      .ok ⟨"(-(-1), \"a\"\"--\", \'\'\'; DROP TABLE t; /*\')", []⟩ := by rfl
  exact ⟨valid, rendered, Tree.Valid.render_isClosed valid guarded rendered⟩

end SqlTree

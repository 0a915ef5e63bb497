import SqlTree.Proofs.BuiltValid
import SqlTree.Proofs.Drawn
import SqlTree.Proofs.Fragments
import SqlTree.Proofs.PrettyLayout

namespace SqlTree

/-- Writing adds text to the page, and goes on in the layout that was in force. -/
theorem Doc.Writes.adds {ctx : Context} {d : Doc} {w v : Writer} (writes : d.Writes ctx w v) :
    ∃ text, v.text = w.text ++ text ∧ v.layout.separator = w.layout.separator := by
  have run : (d.write ctx).outcome w = (.ok (), v) := writes
  cases pretty : w.pretty with
  | false =>
    let twin : Writer := { w with pretty := true }
    have pages : w.Twin twin := ⟨rfl, rfl, rfl, pretty, rfl⟩
    have laid := d.write_laid ctx w twin pages
    rw [run] at laid
    generalize (d.write ctx).outcome twin = other at laid
    cases laid with
    | writes pages' _ plan flat _ =>
      refine ⟨plan.flat, flat, ?_⟩
      simp [Layout.separator, Writer.layout, pages'.compact, pretty]
  | true =>
    let twin : Writer := { w with pretty := false }
    have pages : twin.Twin w := ⟨rfl, rfl, rfl, rfl, pretty⟩
    have laid := d.write_laid ctx twin w pages
    rw [run] at laid
    generalize (d.write ctx).outcome twin = other at laid
    cases laid with
    | writes pages' depth plan _ indented =>
      refine ⟨plan.indented w.depth, indented, ?_⟩
      simp only [Layout.separator, Layout.newline, Writer.layout, pages'.pretty, pretty, depth]

namespace Composite

variable (style : Style) (c : Composite)

def window : Option LimitOffset :=
  c.limitOffset.map (·.window)

/-- The document of a set operation in the standard renderers. -/
def doc : Doc :=
  Render.composite style c.ops (c.terms.map fun q => q.drawn style) (c.orderBy.map fun o => o.drawn style)
    (c.limitOffset.map fun l => l.drawn style)

/-- What follows the terms. -/
def tail : Doc :=
  Doc.ofOption (c.orderBy.map fun o => o.drawn style) (fun o => Doc.gap ++ o.value) ++
    Render.pagination style c.window c.orderBy.isSome

end Composite

/-- The document of a set operation is handed to its renderer. -/
theorem Tree.doc_composite (style : Style) (t : Tree .composite) :
    t.doc style = style.renderer t.form ((Composite.ofTree t).doc style) := by
  match t with
  | .node (.composite ops) below =>
    change style.renderer _ (Render.standard style (.composite ops) (below.drawn style)) = _
    rw [below.drawn_eq_map style]
    rfl

section Terms

variable {style : Style} {ctx : Context}

variable (style ctx) in
/-- Queries are written one after another as terms of a set operation, each once and on the page that is left
by what is before it, with an operator between any two neighbours. The texts are what the terms add. -/
inductive TermsWritten : List SetOperator → List Query → List String → Writer → Writer → Prop
  | last {q : Query} {text : String} {w v : Writer}
      (writes : (Render.term (q.drawn style)).Writes ctx w v) (adds : v.text = w.text ++ text) :
      TermsWritten [] [q] [text] w v
  | next {op : SetOperator} {ops : List SetOperator} {q : Query} {rest : List Query} {text : String}
      {texts : List String} {w u v : Writer} (writes : (Render.term (q.drawn style)).Writes ctx w u)
      (adds : u.text = w.text ++ text)
      (others : TermsWritten ops rest texts ((u.clause op.keyword).write " ") v) :
      TermsWritten (op :: ops) (q :: rest) (text :: texts) w v

/-- The texts of the terms stand on the page in order, with the operators between them and nothing else. -/
theorem TermsWritten.text {ops : List SetOperator} {terms : List Query} {texts : List String} {w v : Writer}
    (written : TermsWritten style ctx ops terms texts w v) :
    v.text = w.text ++ Text.woven texts (ops.map fun op => w.layout.separator ++ op.keyword ++ " ") := by
  induction written with
  | last writes adds => exact adds
  | @next op ops q rest text texts w u v writes adds others ih =>
    obtain ⟨_, _, same⟩ := writes.adds
    have layout : ((u.clause op.keyword).write " ").layout.separator = w.layout.separator := by
      rw [Writer.clause, u.separator_eq]
      exact same
    have text' : ((u.clause op.keyword).write " ").text =
        w.text ++ text ++ (w.layout.separator ++ op.keyword ++ " ") := by
      rw [Writer.clause, u.separator_eq, same]
      simp only [Writer.write, adds, String.append_assoc]
    rw [ih, text', layout]
    simp only [List.map_cons, Text.woven, String.append_assoc]

/-- As long as operators and terms run out together, all terms are written. -/
theorem Render.terms_writes_iff {ops : List SetOperator} {first : Query} {rest : List Query}
    (paired : ops.length = rest.length) {w v : Writer} :
    (Render.term (first.drawn style) ++ Render.terms ops (rest.map fun q => q.drawn style)).Writes ctx w v ↔
      ∃ texts, TermsWritten style ctx ops (first :: rest) texts w v := by
  induction ops generalizing first rest w with
  | nil =>
    obtain rfl : rest = [] := List.eq_nil_of_length_eq_zero paired.symm
    constructor
    · intro writes
      obtain ⟨u, writes, rest⟩ := Doc.Writes.append_iff.mp writes
      obtain rfl := Doc.Writes.empty_iff.mp rest
      obtain ⟨text, adds, _⟩ := writes.adds
      exact ⟨[text], .last writes adds⟩
    · rintro ⟨_, written⟩
      cases written with
      | last writes _ => exact Doc.Writes.append_iff.mpr ⟨v, writes, Doc.Writes.empty_iff.mpr rfl⟩
  | cons op ops ih =>
    cases rest with
    | nil => cases paired
    | cons second rest =>
      have shorter : ops.length = rest.length := Nat.succ.inj paired
      let others := Render.term (second.drawn style) ++ Render.terms ops (rest.map fun q => q.drawn style)
      have unfolded : ∀ {v : Writer}, (Render.term (first.drawn style) ++
          Render.terms (op :: ops) ((second :: rest).map fun q => q.drawn style)).Writes ctx w v ↔
          ∃ u, (Render.term (first.drawn style)).Writes ctx w u ∧
            others.Writes ctx ((u.clause op.keyword).write " ") v := by
        intro v
        simp only [List.map_cons, Render.terms, Doc.clause, others, Doc.Writes.append_iff, Doc.Writes.gap_iff,
          Doc.Writes.text_iff, Writer.clause]
        simp
      rw [unfolded]
      constructor
      · rintro ⟨u, writes, others⟩
        obtain ⟨text, adds, _⟩ := writes.adds
        obtain ⟨texts, written⟩ := (ih shorter).mp others
        exact ⟨text :: texts, .next writes adds written⟩
      · rintro ⟨_, written⟩
        cases written with
        | @next _ _ _ _ _ texts _ u _ writes _ others => exact ⟨u, writes, (ih shorter).mpr ⟨texts, others⟩⟩

/-- Where a row window can stand behind the terms, nothing is written in front of them. -/
theorem Render.compositeTop_writes {window : Option LimitOffset} {w u : Writer}
    (writes : (Render.compositeTop style window).Writes ctx w u) : u = w := by
  unfold Render.compositeTop at writes
  split at writes
  · split at writes
    · exact absurd writes Doc.Writes.not_fail
    · split at writes
      · exact absurd writes Doc.Writes.not_fail
      · exact Doc.Writes.empty_iff.mp writes
  · exact Doc.Writes.empty_iff.mp writes

variable (style ctx) in
/-- A set operation has been written: its terms, each once and in order, then what follows them. -/
def Composite.Written (c : Composite) (w v : Writer) : Prop :=
  (Render.compositeTop style c.window).Writes ctx w w ∧
    ∃ (texts : List String) (u : Writer), TermsWritten style ctx c.ops c.terms texts w u ∧
      u.text = w.text ++ Text.woven texts (c.ops.map fun op => w.layout.separator ++ op.keyword ++ " ") ∧
      (c.tail style).Writes ctx u v

/-- Valid set operations are written with all their terms. -/
theorem Composite.Valid.writes_iff {c : Composite} (valid : c.Valid) {w v : Writer} :
    (c.doc style).Writes ctx w v ↔ c.Written style ctx w v := by
  obtain ⟨terms, ops, orderBy, limitOffset⟩ := c
  cases terms with
  | nil => exact absurd valid.several (by simp)
  | cons first rest =>
    have paired : ops.length = rest.length := Nat.succ.inj valid.paired
    let c : Composite := ⟨first :: rest, ops, orderBy, limitOffset⟩
    let queries := Render.term (first.drawn style) ++ Render.terms ops (rest.map fun q => q.drawn style)
    have shape : (c.doc style).Writes ctx w v ↔ ∃ t u, (Render.compositeTop style c.window).Writes ctx w t ∧
        queries.Writes ctx t u ∧ (c.tail style).Writes ctx u v := by
      have window : (limitOffset.map fun l => l.drawn style).map (·.tree.window) = c.window := by
        cases limitOffset <;> rfl
      have ordered : (orderBy.map fun o => o.drawn style).isSome = orderBy.isSome := by
        cases orderBy <;> rfl
      simp only [c, Composite.doc, Composite.tail, Render.composite, List.map_cons, window, ordered, queries,
        Doc.Writes.append_iff]
      grind
    rw [shape]
    constructor
    · rintro ⟨t, u, lead, written, trail⟩
      obtain rfl := Render.compositeTop_writes lead
      obtain ⟨texts, written⟩ := (Render.terms_writes_iff paired).mp written
      exact ⟨lead, texts, u, written, written.text, trail⟩
    · rintro ⟨lead, texts, u, written, _, trail⟩
      exact ⟨w, u, lead, (Render.terms_writes_iff paired).mpr ⟨texts, written⟩, trail⟩

end Terms

end SqlTree

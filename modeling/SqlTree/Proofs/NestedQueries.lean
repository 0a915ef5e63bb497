import SqlTree.Proofs.BuiltValid
import SqlTree.Proofs.Passage
import SqlTree.Proofs.SetOperationMeaning
import SqlTree.Proofs.ValuesInPlace

namespace SqlTree

/-- Set operations and WITH queries are written between marks. -/
def Style.marking (style : Style) (before after : QueryVariant → String) : Style :=
  (style.surround .withQuery (before .withQuery) (after .withQuery)).surround .composite (before .composite)
    (after .composite)

def Dialect.marking (dialect : Dialect) (before after : QueryVariant → String) : Dialect :=
  { dialect with toStyle := dialect.toStyle.marking before after }

def Kind.isQuery : Kind → Bool
  | .query | .composite | .withQuery => true
  | _ => false

/-- A slot in which no query can stand. -/
def Slot.isPlain : Slot → Bool
  | .one k | .opt k | .many k => !k.isQuery
  | .arms => true

section

variable (ctx : Context) (before after : QueryVariant → String)

/-- How the documents of a node are related in the two readings: what is no query is delimited, and so is a
query that stands bare among the terms of a set operation. -/
def Drawn.Marked : {k : Kind} → Drawn k → Drawn k → Prop
  | .query, a, b =>
    Query.isPlain a.tree = Query.isPlain b.tree ∧
      Doc.Marked ctx before after Passage.Whole a.value b.value ∧
      (Query.isPlain a.tree = true → Doc.Marked ctx before after Passage.Delimited a.value b.value)
  | .composite, a, b | .withQuery, a, b => Doc.Marked ctx before after Passage.Whole a.value b.value
  | _, a, b => Drawn.Related (Doc.Marked ctx before after Passage.Delimited) a b

variable {ctx before after} {style : Style}

theorem Drawn.marked_iff {k : Kind} (plain : k.isQuery = false) {a b : Drawn k} :
    Drawn.Marked ctx before after a b ↔ Drawn.Related (Doc.Marked ctx before after Passage.Delimited) a b := by
  cases k
  case query | composite | withQuery => cases plain
  all_goals exact Iff.rfl

/-- Where no query can stand, everything is delimited. -/
theorem Fill.Rel.related : {slots : List Slot} → slots.all Slot.isPlain = true →
    {parts others : Fill Drawn slots} → Fill.Rel (Drawn.Marked ctx before after) slots parts others →
    Fill.Rel (Drawn.Related (Doc.Marked ctx before after Passage.Delimited)) slots parts others
  | [], _, _, _, _ => trivial
  | slot :: slots, plain, (a, as), (b, bs), rel => by
    obtain ⟨first, rest⟩ := Bool.and_eq_true_iff.mp (List.all_cons.symm.trans plain)
    cases slot with
    | one k => exact ⟨(Drawn.marked_iff ((Bool.not_eq_true' _).mp first)).mp rel.1, Fill.Rel.related rest rel.2⟩
    | opt k =>
      exact ⟨rel_imp (Drawn.marked_iff ((Bool.not_eq_true' _).mp first)).mp rel.1, Fill.Rel.related rest rel.2⟩
    | many k =>
      exact ⟨rel.1.imp fun _ _ => (Drawn.marked_iff ((Bool.not_eq_true' _).mp first)).mp,
        Fill.Rel.related rest rel.2⟩
    | arms => exact ⟨rel.1, Fill.Rel.related rest rel.2⟩

theorem Render.standard_marking {k : Kind} (form : Form k) (parts : Fill Drawn form.slots) :
    Render.standard (style.marking before after) form parts = Render.standard style form parts := by
  cases form <;> rfl

theorem Drawn.Marked.block {a b : Drawn .query} (marked : Drawn.Marked ctx before after a b) :
    Doc.Marked ctx before after Passage.Delimited (.block a.value) (.block b.value) :=
  marked.2.1.block .parens

theorem Drawn.Marked.term {a b : Drawn .query} (marked : Drawn.Marked ctx before after a b) :
    Doc.Marked ctx before after Passage.Delimited (Render.term a) (Render.term b) := by
  obtain ⟨same, whole, delimited⟩ := marked
  unfold Render.term
  rw [← same]
  split
  · exact delimited ‹_›
  · exact whole.block .parens

/-- What stands below a node that is no query is delimited, and so is the node. -/
theorem Render.standard_marked {k : Kind} (form : Form k) (plain : k.isQuery = false)
    {parts others : Fill Drawn form.slots}
    (related : Fill.Rel (Drawn.Marked ctx before after) form.slots parts others) :
    Doc.Marked ctx before after Passage.Delimited (Render.standard style form parts)
      (Render.standard style form others) := by
  have c := @Doc.Marked.congruence ctx before after
  -- where there is a slot for a query, the query is written as a block
  cases form with
  | query | composite | withQuery => cases plain
  | subquery => exact related.1.block
  | existence => exact c.before _ related.1.block
  | quantified => exact c.append (c.after (c.after (c.side related.1) _) _) related.2.1.block
  | valueSet variant =>
    cases variant with
    | query => exact related.1.block
    | row | rowList => exact c.standard style _ (Fill.Rel.related rfl related)
  | subqueryTable => exact c.after related.1.block _
  | cte => exact c.cte style _ _ _ (rel_imp Drawn.Marked.block related.1)
  | expr variant | predicate variant | tableRef variant | join variant =>
    cases variant <;> exact c.standard style _ (Fill.Rel.related rfl related)
  | _ => exact c.standard style _ (Fill.Rel.related rfl related)

/-- A set operation writes nothing bare but plain queries. -/
theorem Render.composite_marked (ops : List SetOperator) {parts others : Fill Drawn (Form.composite ops).slots}
    (related : Fill.Rel (Drawn.Marked ctx before after) (Form.composite ops).slots parts others) :
    Doc.Marked ctx before after Passage.Delimited (Render.standard style (.composite ops) parts)
      (Render.standard style (.composite ops) others) :=
  Doc.Marked.congruence.composite style ops (related.1.imp fun _ _ => Drawn.Marked.term)
    (rel_imp (Drawn.marked_iff rfl).mp related.2.1) (rel_imp (Drawn.marked_iff rfl).mp related.2.2.1)

/-- A WITH query ends with its body. -/
theorem Render.withQuery_marked (recursive : Bool) {parts others : Fill Drawn (Form.withQuery recursive).slots}
    (related : Fill.Rel (Drawn.Marked ctx before after) (Form.withQuery recursive).slots parts others) :
    Doc.Marked ctx before after (fun p => Passage.Whole (.query .withQuery p))
      (Render.standard style (.withQuery recursive) parts)
      (Render.standard style (.withQuery recursive) others) := by
  have c := @Doc.Marked.congruence ctx before after
  have ctes := c.list (related.1.imp fun _ _ => (Drawn.marked_iff rfl).mp)
  exact .append .withQuery (c.after (c.before _ ctes) _) related.2.1.2.1

theorem Style.marking_others (standard : style.StandardRenderers) {k : Kind} (form : Form k) (doc : Doc)
    (composite : k ≠ .composite) (withQuery : k ≠ .withQuery) :
    (style.marking before after).renderer form doc = doc :=
  (if_neg composite).trans ((if_neg withQuery).trans (standard form doc))

/-- The marks of a node come from its own form, and the rest from the nodes below it. -/
theorem Tree.doc_marking {k : Kind} (form : Form k) (below : Forest form.slots) :
    (Tree.node form below).doc (style.marking before after) =
      (style.marking before after).renderer form
        (Render.standard style form (below.drawn (style.marking before after))) :=
  congrArg ((style.marking before after).renderer form) (Render.standard_marking form _)

/-- The only query that can stand bare among the terms of a set operation is a SELECT. -/
theorem Query.marked_of (standard : style.StandardRenderers) (variant : QueryVariant) (t : Tree variant.kind)
    (marked : Drawn.Marked ctx before after (t.drawn style) (t.drawn (style.marking before after))) :
    Drawn.Marked ctx before after ((Query.of variant t).drawn style)
      ((Query.of variant t).drawn (style.marking before after)) := by
  have doc : (Query.of variant t).doc style = t.doc style := Tree.doc_node standard _ _
  have doc' : (Query.of variant t).doc (style.marking before after) = t.doc (style.marking before after) :=
    (Tree.doc_marking _ _).trans (Style.marking_others standard (.query variant) _ nofun nofun)
  change _ ∧ Doc.Marked ctx before after Passage.Whole (Tree.doc _ _) (Tree.doc _ _) ∧
    (_ → Doc.Marked ctx before after Passage.Delimited (Tree.doc _ _) (Tree.doc _ _))
  rw [doc, doc']
  cases variant with
  | select => exact ⟨rfl, marked.doc.mono .plain, fun _ => marked.doc⟩
  | composite | withQuery => exact ⟨rfl, marked, nofun⟩

/-- One node, from the nodes below it. -/
theorem Tree.marked_node (standard : style.StandardRenderers) {k : Kind} (form : Form k)
    (below : Forest form.slots)
    (others : Fill.Rel (Drawn.Marked ctx before after) form.slots (below.drawn style)
      (below.drawn (style.marking before after))) :
    Drawn.Marked ctx before after ((Tree.node form below).drawn style)
      ((Tree.node form below).drawn (style.marking before after)) := by
  cases form with
  | query variant =>
    cases below with
    | one t rest =>
      cases rest
      exact Query.marked_of standard variant t others.1
  | composite ops =>
    change Doc.Marked ctx before after Passage.Whole (Tree.doc _ _) (Tree.doc _ _)
    rw [Tree.doc_node standard, Tree.doc_marking]
    exact .query .composite .composite (Render.composite_marked ops others)
  | withQuery recursive =>
    change Doc.Marked ctx before after Passage.Whole (Tree.doc _ _) (Tree.doc _ _)
    rw [Tree.doc_node standard, Tree.doc_marking]
    exact .query .withQuery id (Render.withQuery_marked recursive others)
  | _ =>
    refine (Drawn.marked_iff rfl).mpr ⟨Tree.looks_self _, ?_⟩
    change Doc.Marked ctx before after Passage.Delimited (Tree.doc _ _) (Tree.doc _ _)
    rw [Tree.doc_node standard, Tree.doc_marking, Style.marking_others standard _ _ (by nofun) (by nofun)]
    exact Render.standard_marked _ rfl others

/-- Every node is related to itself, drawn with marks. -/
theorem Tree.marked_drawn (standard : style.StandardRenderers) {k : Kind} (t : Tree k) :
    Drawn.Marked ctx before after (t.drawn style) (t.drawn (style.marking before after)) :=
  Tree.induction_below
    (Q := fun t => Drawn.Marked ctx before after (t.drawn style) (t.drawn (style.marking before after)))
    (fun form below inside => Tree.marked_node standard form below (Forest.rel_drawn inside)) t

end

/-- Marks are a matter of documents: how a document is written does not depend on them. -/
theorem Doc.write_marking (dialect : Dialect) (before after : QueryVariant → String) (options : RenderOptions)
    (d : Doc) : d.write ⟨dialect.marking before after, options⟩ = d.write ⟨dialect, options⟩ := by
  induction d with
  | empty | text | gap | fail | note => rfl
  | append first second left right => simp only [Doc.write, left, right]
  | block body ih | afterMinus body ih => simp only [Doc.write, ih]
  | require construct => rfl
  | param p inline ih =>
    simp only [Doc.write, ih]
    rfl

/-- On a page of its own a query is written with the same passage, with and without marks. -/
theorem Query.renderOn_marked (q : Query) {dialect : Dialect}
    (standard : dialect.toStyle.StandardRenderers) {options : RenderOptions} (compact : options.pretty = false)
    (before after : QueryVariant → String) {reserved : List String} {text : SqlText}
    (rendered : (q.renderOn ⟨dialect, options⟩ reserved).result = .ok text) :
    ∃ p : Passage, p.Whole ∧ text.sql = p.plain ∧
      (q.renderOn ⟨dialect.marking before after, options⟩ reserved).result =
        .ok ⟨p.shown before after, text.params⟩ := by
  obtain ⟨w, writes, rfl⟩ := Tree.renderOn_ok rendered
  have marked := (@Tree.marked_drawn ⟨dialect, options⟩ before after _ standard _ q).2.1
  obtain ⟨p, whole, plain, again⟩ := marked.reads (w := Context.page ⟨dialect, options⟩ reserved) compact writes
  obtain ⟨log, writes⟩ := again "" []
  refine ⟨p, whole, plain.trans String.empty_append, ?_⟩
  have written : ((q.doc (dialect.toStyle.marking before after)).write ⟨dialect, options⟩).outcome
      (Context.page ⟨dialect, options⟩ reserved) =
        (.ok (), w.behind ("" ++ p.shown before after) log) := writes
  rw [Tree.renderOn_result, Doc.write_marking]
  change Outcome.result (Writing.outcome ((q.doc (dialect.toStyle.marking before after)).write ⟨dialect, options⟩)
    (Context.page ⟨dialect, options⟩ reserved)) = _
  rw [written, String.empty_append]
  rfl

/-- Nested queries are delimited: a compact text is a passage in which every set operation and every WITH
query stands in a pair of parentheses of its own, apart from the whole query and the bodies of WITH queries.
The marks of another rendering stand where the queries of the passage are. -/
theorem Query.nested_delimited {q : Query} {dialect : Dialect} (standard : dialect.toStyle.StandardRenderers)
    {options : RenderOptions} (compact : options.pretty = false) {text : SqlText}
    (rendered : (q.render dialect options).result = .ok text) (before after : QueryVariant → String) :
    ∃ p : Passage, p.Whole ∧ text.sql = p.plain ∧
      (q.render (dialect.marking before after) options).result = .ok ⟨p.shown before after, text.params⟩ := by
  cases mode : options.mode with
  | inline =>
    rw [Tree.render_inline _ _ mode] at rendered ⊢
    exact Query.renderOn_marked q standard compact before after rendered
  | bind =>
    rw [Tree.render_bind _ _ mode] at rendered ⊢
    dsimp only at rendered ⊢
    cases valueless : (q.numbered .start).1.firstValueless? with
    | some p =>
      rw [valueless] at rendered
      cases rendered
    | none =>
      rw [valueless] at rendered
      exact Query.renderOn_marked _ standard compact before after rendered

/-- `WITH name AS (inner) main` -/
def Query.behindCte (name : String) (inner main : Query) : Query :=
  .of .withQuery (.ofContents (.withQuery false) ([Cte.make ⟨name, .none⟩ [] .default inner], main, ()))

theorem Query.behindCte_valid {name : String} (some : Text.isBlank name = false) {inner main : Query}
    (within : inner.Valid) (behind : main.Valid) : (Query.behindCte name inner main).Valid := by
  have cte : (Cte.make ⟨name, .none⟩ [] .default inner).Valid :=
    Cte.make_valid.mpr ⟨⟨Identifier.valid_of_text some, nofun⟩, within⟩
  exact Query.of_valid.mpr (((Form.withQuery false).plain_valid trivial rfl).mpr ⟨cte, behind, trivial⟩)

theorem Query.nested_delimited_cte :
    let q := Query.behindCte "a" (.behindCte "b" (.ofColumn "x") (.ofColumn "y")) (.ofColumn "z")
    RenderOptions.inline.pretty = false ∧ q.toSql = .ok "WITH a AS (WITH b AS (SELECT x) SELECT y) SELECT z" ∧
      ∃ p : Passage, p.Whole ∧ p.plain = "WITH a AS (WITH b AS (SELECT x) SELECT y) SELECT z" ∧
        p.shown (fun _ => "<") (fun _ => ">") = "<WITH a AS (<WITH b AS (SELECT x) SELECT y>) SELECT z>" := by
  intro q
  have rendered : (q.render .standard .inline).result =
      .ok ⟨"WITH a AS (WITH b AS (SELECT x) SELECT y) SELECT z", []⟩ := by rfl
  have marked : (q.render (Dialect.standard.marking (fun _ => "<") fun _ => ">") .inline).result =
      .ok ⟨"<WITH a AS (<WITH b AS (SELECT x) SELECT y>) SELECT z>", []⟩ := by rfl
  obtain ⟨p, whole, plain, shown⟩ :=
    Query.nested_delimited (fun _ _ => rfl) rfl rendered (fun _ => "<") fun _ => ">"
  rw [marked] at shown
  have text := congrArg (Except.map (·.sql)) rendered
  exact ⟨rfl, text, p, whole, plain.symm, congrArg SqlText.sql (Except.ok.inj shown).symm⟩

/-- A WITH query that is the body of another one is written bare: no mark stands behind a parenthesis. -/
theorem Query.with_in_with_bare :
    let q := Query.behindCte "a" (.ofColumn "x") (.behindCte "b" (.ofColumn "y") (.ofColumn "z"))
    let marked := "<WITH a AS (SELECT x) <WITH b AS (SELECT y) SELECT z>>"
    q.Valid ∧ q.toSql = .ok "WITH a AS (SELECT x) WITH b AS (SELECT y) SELECT z" ∧
      (q.render (Dialect.standard.marking (fun _ => "<") fun _ => ">") .inline).result = .ok ⟨marked, []⟩ ∧
      ¬"(<".toList <:+: marked.toList := by
  intro q marked
  have column : ∀ name, Text.isBlank name = false → (Query.ofColumn name).Valid := Query.ofColumn_valid
  have inner := Query.behindCte_valid (by rfl : Text.isBlank "b" = false) (column "y" rfl) (column "z" rfl)
  exact ⟨Query.behindCte_valid rfl (column "x" rfl) inner, by rfl, by rfl, by decide +kernel⟩

end SqlTree

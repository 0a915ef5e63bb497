import SqlTree.Proofs.BuiltValid
import SqlTree.Proofs.NumberedLooks
import SqlTree.Proofs.Rendered
import SqlTree.Proofs.RowWindowText
import SqlTree.Proofs.WrittenParams

namespace SqlTree

/-- The SELECT with another row window. -/
def SelectParts.windowed (s : SelectParts Tree) (window : Option LimitOffset) : SelectParts Tree :=
  { s with limitOffset := window.map Tree.limitOffset }

/-- The set operation with another row window. -/
def Composite.windowed (c : Composite) (window : Option LimitOffset) : Composite :=
  { c with limitOffset := window.map Tree.limitOffset }

/-- Documents in which a row window stands in two places at most, among others that do not depend on it. -/
def Style.Windowed (style : Style) (top doc : Option LimitOffset → Doc) : Prop :=
  ∃ (front middle last : Doc) (ordered : Bool), ∀ window ctx,
    (doc window).write ctx =
      (front ++ (top window ++ (middle ++ (Render.pagination style window ordered ++ last)))).write ctx

section Documents

variable {style : Style}

theorem Doc.write_append (ctx : Context) (first second : Doc) :
    (first ++ second).write ctx = (do
      first.write ctx
      second.write ctx) :=
  rfl

theorem drawn_window (window : Option LimitOffset) :
    ((window.map Tree.limitOffset).map fun t => t.drawn style).map (·.tree.window) = window := by
  cases window <;> rfl

theorem SelectParts.doc_windowed (standard : style.StandardRenderers) (s : SelectParts Tree) :
    style.Windowed (Render.top style) fun window => (s.windowed window).toTree.doc style := by
  let d : SelectParts Drawn := .ofFill (Fill.map (fun t => t.drawn style) Form.select.slots s.toFill)
  refine ⟨Doc.text "SELECT" ++ Doc.ofOption d.distinct (fun d => Doc.text " " ++ d.value),
    Doc.when d.items.isEmpty (Doc.fail (.invalid .emptySelect)) ++ Doc.text " " ++ Render.list d.items ++
      Doc.ofOption d.source (fun t => Doc.clause "FROM " ++ t.value) ++
      Doc.concat (d.joins.map fun j => Doc.gap ++ j.value) ++
      Doc.ofOption d.filter (fun p => Doc.clause "WHERE " ++ p.value) ++
      Doc.ofOption d.groupBy (fun g => Doc.gap ++ g.value) ++
      Doc.ofOption d.having (fun p => Doc.clause "HAVING " ++ p.value) ++
      Doc.when (!d.windows.isEmpty) (Doc.clause "WINDOW " ++ Render.list d.windows) ++
      Doc.ofOption d.orderBy (fun o => Doc.gap ++ o.value),
    Doc.ofOption d.locking (fun l => Doc.gap ++ l.value), d.orderBy.isSome, fun window ctx => ?_⟩
  have doc : (s.windowed window).toTree.doc style =
      Render.select style { d with limitOffset := (window.map Tree.limitOffset).map fun t => t.drawn style } := by
    rw [SelectParts.toTree, Tree.ofContents, Tree.doc_node standard, Forest.drawn_eq_map,
      Forest.contents_ofContents]
    rfl
  change ((s.windowed window).toTree.doc style).write ctx = _
  rw [doc]
  simp only [Render.select, drawn_window, Doc.write_append, bind_assoc]

/-- A row window asks something of a set operation before its terms, and stands behind the order. -/
theorem Render.composite_window (ops : List SetOperator) (queries : List (Drawn .query))
    (order : Option (Drawn .orderBy)) :
    ∃ terms : Doc, ∀ limitOffset : Option (Drawn .limitOffset),
      Render.composite style ops queries order limitOffset =
        Render.compositeTop style (limitOffset.map (·.tree.window)) ++ terms ++
          Doc.ofOption order (fun o => Doc.gap ++ o.value) ++
          Render.pagination style (limitOffset.map (·.tree.window)) order.isSome := by
  cases queries with
  | nil => exact ⟨Doc.fail (.invalid .noTerms), fun _ => rfl⟩
  | cons first rest => exact ⟨Render.term first ++ Render.terms ops rest, fun _ => rfl⟩

theorem Composite.doc_windowed (standard : style.StandardRenderers) (c : Composite) :
    style.Windowed (Render.compositeTop style) fun window => (c.windowed window).toTree.doc style := by
  let order := c.orderBy.map fun o => o.drawn style
  obtain ⟨terms, composite⟩ :=
    Render.composite_window c.ops (c.terms.map fun q => q.drawn style) order
  refine ⟨Doc.empty, terms ++ Doc.ofOption order (fun o => Doc.gap ++ o.value), Doc.empty, order.isSome,
    fun window ctx => ?_⟩
  have doc : (c.windowed window).toTree.doc style = (c.windowed window).doc style := by
    rw [Tree.doc_composite, Composite.ofTree_toTree]
    exact standard _ _
  have silent : Doc.empty.write ctx = pure () := rfl
  change ((c.windowed window).toTree.doc style).write ctx = _
  rw [doc, Composite.doc, Composite.windowed, composite, drawn_window]
  simp only [Doc.write_append, bind_assoc, silent, pure_bind, bind_pure_unit]

end Documents

namespace Forest

variable {k : Kind}

/-- How the node in a slot is numbered does not depend on what is behind it. -/
theorem numbered_ofOption (t : Option (Tree k)) (n : Numbering) :
    ∃ (u : Option (Tree k)) (m : Numbering), ∀ {slots : List Slot} (rest : Forest slots),
      (Forest.ofOption t rest).numbered n = (.ofOption u (rest.numbered m).1, (rest.numbered m).2) := by
  cases t with
  | none => exact ⟨none, n, fun rest => Forest.numbered_absent n rest⟩
  | some t => exact ⟨some (t.numbered n).1, (t.numbered n).2, fun rest => Forest.numbered_present n t rest⟩

theorem numbered_ofList (ts : List (Tree k)) (n : Numbering) :
    ∃ (us : List (Tree k)) (m : Numbering), ∀ {slots : List Slot} (rest : Forest slots),
      (Forest.ofList ts rest).numbered n = (.ofList us (rest.numbered m).1, (rest.numbered m).2) := by
  induction ts generalizing n with
  | nil => exact ⟨[], n, fun rest => Forest.numbered_done n rest⟩
  | cons t ts ih =>
    obtain ⟨us, m, others⟩ := ih (t.numbered n).2
    refine ⟨(t.numbered n).1 :: us, m, fun rest => ?_⟩
    change (Forest.more t (Forest.ofList ts rest)).numbered n = _
    rw [Forest.numbered_more, others]
    rfl

theorem numbered_window (window : Option LimitOffset) (n : Numbering) {slots : List Slot} (rest : Forest slots) :
    (Forest.ofOption (window.map Tree.limitOffset) rest).numbered n =
      (.ofOption (window.map Tree.limitOffset) (rest.numbered n).1, (rest.numbered n).2) := by
  cases window with
  | none => exact Forest.numbered_absent n rest
  | some w => exact Forest.numbered_present n (.limitOffset w) rest

end Forest

theorem SelectParts.numbered_windowed (s : SelectParts Tree) (n : Numbering) :
    ∃ u : SelectParts Tree, ∀ window, ((s.windowed window).toTree.numbered n).1 = (u.windowed window).toTree := by
  obtain ⟨distinct, n, atDistinct⟩ := Forest.numbered_ofOption s.distinct n
  obtain ⟨items, n, atItems⟩ := Forest.numbered_ofList s.items n
  obtain ⟨source, n, atSource⟩ := Forest.numbered_ofOption s.source n
  obtain ⟨joins, n, atJoins⟩ := Forest.numbered_ofList s.joins n
  obtain ⟨filter, n, atFilter⟩ := Forest.numbered_ofOption s.filter n
  obtain ⟨groups, n, atGroups⟩ := Forest.numbered_ofOption s.groupBy n
  obtain ⟨having, n, atHaving⟩ := Forest.numbered_ofOption s.having n
  obtain ⟨windows, n, atWindows⟩ := Forest.numbered_ofList s.windows n
  obtain ⟨order, n, atOrder⟩ := Forest.numbered_ofOption s.orderBy n
  obtain ⟨lock, n, atLock⟩ := Forest.numbered_ofOption s.locking n
  refine ⟨⟨distinct, items, source, joins, filter, groups, having, windows, order, none, lock⟩, fun window => ?_⟩
  rw [SelectParts.toTree, Tree.ofContents, Numbering.numbered_plain _ rfl]
  simp only [SelectParts.windowed, SelectParts.toFill, Forest.ofContents, atDistinct, atItems, atSource, atJoins,
    atFilter, atGroups, atHaving, atWindows, atOrder, Forest.numbered_window, atLock]
  rfl

theorem Composite.numbered_windowed (c : Composite) (n : Numbering) :
    ∃ d : Composite, ∀ window, ((c.windowed window).toTree.numbered n).1 = (d.windowed window).toTree := by
  obtain ⟨terms, n, atTerms⟩ := Forest.numbered_ofList c.terms n
  obtain ⟨order, n, atOrder⟩ := Forest.numbered_ofOption c.orderBy n
  refine ⟨⟨terms, c.ops, order, none⟩, fun window => ?_⟩
  rw [Composite.toTree, Numbering.numbered_plain _ rfl]
  simp only [Composite.windowed, atTerms, atOrder, Forest.numbered_window]
  rfl

namespace Visitor.Lawful

variable {ρ : Type} {v : Visitor Id ρ} (lawful : v.Lawful) {k : Kind} {slots : List Slot}
  {rest others : Forest slots}

include lawful

theorem total_ofOption_congr (t : Option (Tree k)) (same : rest.total v = others.total v) :
    (Forest.ofOption t rest).total v = (Forest.ofOption t others).total v := by
  cases t with
  | none => exact same
  | some t =>
    change (Forest.present t rest).total v = (Forest.present t others).total v
    rw [lawful.total_present, lawful.total_present, same]

theorem total_ofList_congr (ts : List (Tree k)) (same : rest.total v = others.total v) :
    (Forest.ofList ts rest).total v = (Forest.ofList ts others).total v := by
  induction ts with
  | nil => exact same
  | cons t ts ih =>
    change (Forest.more t (Forest.ofList ts rest)).total v = (Forest.more t (Forest.ofList ts others)).total v
    rw [lawful.total_more, lawful.total_more, ih]

end Visitor.Lawful

section Names

open Visitor

theorem Tree.callerNames_congr {k : Kind} {form : Form k} {below others : Forest form.slots} (other : k ≠ .param)
    (same : below.total collected = others.total collected) :
    (Tree.node form below).callerNames = (Tree.node form others).callerNames := by
  unfold Tree.callerNames Tree.params
  rw [collected_lawful.visit_node, collected_lawful.visit_node, params_enter _ _ _ _ _ other,
    params_enter _ _ _ _ _ other, same]

/-- There are no parameters in a row window. -/
theorem Forest.total_window (window : Option LimitOffset) {slots : List Slot} (rest : Forest slots) :
    (Forest.ofOption (window.map Tree.limitOffset) rest).total collected = rest.total collected := by
  cases window with
  | none => rfl
  | some w => exact collected_lawful.total_present (.limitOffset w) rest

theorem SelectParts.callerNames_windowed (s : SelectParts Tree) (a b : Option LimitOffset) :
    (s.windowed a).toTree.callerNames = (s.windowed b).toTree.callerNames := by
  refine Tree.callerNames_congr nofun ?_
  simp only [SelectParts.windowed, SelectParts.toFill, Forest.ofContents]
  have option := @collected_lawful.total_ofOption_congr
  have list := @collected_lawful.total_ofList_congr
  refine option _ (list _ (option _ (list _ (option _ (option _ (option _ (list _ (option _ ?_))))))))
  rw [Forest.total_window, Forest.total_window]

theorem Composite.callerNames_windowed (c : Composite) (a b : Option LimitOffset) :
    (c.windowed a).toTree.callerNames = (c.windowed b).toTree.callerNames := by
  refine Tree.callerNames_congr nofun ?_
  refine collected_lawful.total_ofList_congr _ (collected_lawful.total_ofOption_congr _ ?_)
  simp only [Composite.windowed, Forest.total_window]

end Names

/-- Nodes that are equal but for a row window, as renderers see them: what is written before the window is
known, and so are the names that the caller gave. -/
structure Tree.Windowed {k : Kind} (top : Style → Option LimitOffset → Doc) (node : Option LimitOffset → Tree k) :
    Prop where
  doc : ∀ {style : Style}, style.StandardRenderers →
    style.Windowed (top style) fun window => (node window).doc style
  names : ∀ a b, (node a).callerNames = (node b).callerNames

theorem SelectParts.windowed_nodes (s : SelectParts Tree) :
    Tree.Windowed Render.top fun window => (s.windowed window).toTree :=
  ⟨fun standard => s.doc_windowed standard, s.callerNames_windowed⟩

theorem Composite.windowed_nodes (c : Composite) :
    Tree.Windowed Render.compositeTop fun window => (c.windowed window).toTree :=
  ⟨fun standard => c.doc_windowed standard, c.callerNames_windowed⟩

section Rendering

variable {dialect : Dialect} {options : RenderOptions} {k : Kind} {top : Style → Option LimitOffset → Doc}
  {node : Option LimitOffset → Tree k} {a b : Option LimitOffset} {text other : SqlText}

/-- A rendering writes the document of the node or of the numbered node, on a page that does not depend on
the row window. -/
theorem Tree.Windowed.rendered (standard : dialect.toStyle.StandardRenderers) (windowed : Tree.Windowed top node)
    (numbered : Tree.Windowed top fun window => ((node window).numbered .start).1) :
    ∃ (doc : Option LimitOffset → Doc) (page : Writer), dialect.toStyle.Windowed (top dialect.toStyle) doc ∧
      ∀ {window : Option LimitOffset} {text : SqlText},
        ((node window).render dialect options).result = .ok text →
          ∃ v, (doc window).Writes ⟨dialect, options⟩ page v ∧ text = v.finish := by
  cases mode : options.mode with
  | inline =>
    refine ⟨_, Context.page ⟨dialect, options⟩ [], windowed.doc standard, fun rendered => ?_⟩
    rw [Tree.render_inline _ dialect mode] at rendered
    exact Tree.renderOn_ok rendered
  | bind =>
    refine ⟨_, Context.page ⟨dialect, options⟩ ((node none).numbered .start).1.callerNames, numbered.doc standard,
      fun {window} _ rendered => ?_⟩
    obtain ⟨_, _, prepared, written⟩ := Tree.render_bind_ok mode rendered
    rw [prepared, numbered.names window none] at written
    exact Tree.renderOn_ok written

theorem Tree.Windowed.asked_eq (standard : dialect.toStyle.StandardRenderers) (windowed : Tree.Windowed top node)
    (numbered : Tree.Windowed top fun window => ((node window).numbered .start).1)
    (tops : ∀ {window : Option LimitOffset} {u v : Writer},
      (top dialect.toStyle window).Writes ⟨dialect, options⟩ u v →
        v = u.write (dialect.pagination.head window) ∧
          (dialect.pagination = .top → (dialect.pagination.bounds window).offset = none))
    (rendered : ((node a).render dialect options).result = .ok text)
    (rendered' : ((node b).render dialect options).result = .ok other) (same : text.sql = other.sql) :
    dialect.pagination.asked a = dialect.pagination.asked b := by
  obtain ⟨doc, page, ⟨front, middle, last, ordered, alike⟩, written⟩ :=
    @Tree.Windowed.rendered dialect options _ _ _ standard windowed numbered
  obtain ⟨v, writes, rfl⟩ := written rendered
  obtain ⟨v', writes', rfl⟩ := written rendered'
  unfold Doc.Writes at writes writes'
  rw [alike] at writes writes'
  exact Render.asked_eq_of_text tops writes writes' same

/-- What a successful rendering says of the place before the window. -/
theorem Tree.Windowed.top_writes (standard : dialect.toStyle.StandardRenderers) (windowed : Tree.Windowed top node)
    (numbered : Tree.Windowed top fun window => ((node window).numbered .start).1)
    (rendered : ((node a).render dialect options).result = .ok text) :
    ∃ u v, (top dialect.toStyle a).Writes ⟨dialect, options⟩ u v := by
  obtain ⟨doc, page, ⟨front, middle, last, ordered, alike⟩, written⟩ :=
    @Tree.Windowed.rendered dialect options _ _ _ standard windowed numbered
  obtain ⟨v, writes, _⟩ := written rendered
  unfold Doc.Writes at writes
  rw [alike] at writes
  obtain ⟨u, _, rest⟩ := Doc.Writes.append_iff.mp writes
  obtain ⟨t, atTop, _⟩ := Doc.Writes.append_iff.mp rest
  exact ⟨u, t, atTop⟩

end Rendering

theorem SelectParts.numbered_nodes (s : SelectParts Tree) :
    Tree.Windowed Render.top fun window => ((s.windowed window).toTree.numbered .start).1 := by
  obtain ⟨u, same⟩ := s.numbered_windowed .start
  simp only [same]
  exact u.windowed_nodes

theorem Composite.numbered_nodes (c : Composite) :
    Tree.Windowed Render.compositeTop fun window => ((c.windowed window).toTree.numbered .start).1 := by
  obtain ⟨d, same⟩ := c.numbered_windowed .start
  simp only [same]
  exact d.windowed_nodes

/-- Row windows are never lost or confused. Two queries that differ at most in their row windows and are
rendered as the same text ask for the same rows; and where TOP is written, no query is rendered that has an
offset, and no set operation that has a limit. -/
theorem Query.row_windows_told {dialect : Dialect} (standard : dialect.toStyle.StandardRenderers)
    (options : RenderOptions) :
    (∀ (s : SelectParts Tree) (a b : Option LimitOffset) (text other : SqlText),
      ((s.windowed a).toTree.render dialect options).result = .ok text →
        ((s.windowed b).toTree.render dialect options).result = .ok other → text.sql = other.sql →
          dialect.pagination.asked a = dialect.pagination.asked b) ∧
      (∀ (c : Composite) (a b : Option LimitOffset) (text other : SqlText),
        ((c.windowed a).toTree.render dialect options).result = .ok text →
          ((c.windowed b).toTree.render dialect options).result = .ok other → text.sql = other.sql →
            dialect.pagination.asked a = dialect.pagination.asked b) ∧
      (dialect.pagination = .top → ∀ (w : LimitOffset) (text : SqlText),
        (w.offset ≠ none → ∀ s : SelectParts Tree,
          ((s.windowed (some w)).toTree.render dialect options).result ≠ .ok text) ∧
        (w.offset ≠ none ∨ w.limit ≠ none → ∀ c : Composite,
          ((c.windowed (some w)).toTree.render dialect options).result ≠ .ok text)) := by
  refine ⟨fun s a b text other rendered rendered' same => ?_, fun c a b text other rendered rendered' same => ?_,
    fun top w text => ⟨fun offset s rendered => ?_, fun either c rendered => ?_⟩⟩
  · exact s.windowed_nodes.asked_eq standard s.numbered_nodes Render.top_writes rendered rendered' same
  · refine c.windowed_nodes.asked_eq standard c.numbered_nodes (fun writes => ?_) rendered rendered' same
    obtain ⟨text, none⟩ := Render.compositeTop_head writes
    exact ⟨text, fun top => congrArg LimitOffset.offset (none top)⟩
  · obtain ⟨u, v, writes⟩ := s.windowed_nodes.top_writes standard s.numbered_nodes rendered
    have none := (Render.top_writes writes).2 top
    rw [top, PaginationStyle.bounds_plain (by decide)] at none
    exact offset none
  · obtain ⟨u, v, writes⟩ := c.windowed_nodes.top_writes standard c.numbered_nodes rendered
    have none := (Render.compositeTop_head writes).2 top
    rw [top, PaginationStyle.bounds_plain (by decide)] at none
    subst none
    exact either.elim (· rfl) (· rfl)

/-- `FETCH` after no offset and after the offset zero: one text for one row window. -/
theorem Query.row_windows_told_fetch :
    let s : SelectParts Tree :=
      ⟨none, [.node (.aliased none) (.one (Expr.column ⟨none, ⟨"a", .none⟩⟩) .nil)], none, [], none, none, none, [],
        none, none, none⟩
    let text : SqlText := ⟨"SELECT a OFFSET 0 ROWS FETCH NEXT 5 ROWS ONLY", []⟩
    ((s.windowed (some ⟨some 5, none⟩)).toTree.render .standard .inline).result = .ok text ∧
      ((s.windowed (some ⟨some 5, some 0⟩)).toTree.render .standard .inline).result = .ok text ∧
      PaginationStyle.offsetFetch.asked (some ⟨some 5, none⟩) =
        PaginationStyle.offsetFetch.asked (some ⟨some 5, some 0⟩) := by
  intro s text
  have first : ((s.windowed (some ⟨some 5, none⟩)).toTree.render .standard .inline).result = .ok text := by rfl
  have second : ((s.windowed (some ⟨some 5, some 0⟩)).toTree.render .standard .inline).result = .ok text := by rfl
  exact ⟨first, second,
    (@Query.row_windows_told .standard (fun _ _ => rfl) .inline).1 s _ _ text text first second rfl⟩

end SqlTree

import SqlTree.Proofs.Filled
import SqlTree.Proofs.SoundExpressions

namespace SqlTree

open Scan

namespace Render

variable {ctx : Context} {opened : List Bracket}

/-- An alias may follow any table. -/
theorem leads_tableAlias (guarded : ctx.dialect.Guarded) (correlation : Option TableAlias) :
    (Render.tableAlias ctx.dialect.toStyle correlation).Leads ctx (Loose opened) (Loose opened) := by
  refine .ofOption fun a _ => ?_
  have columns : (Doc.text " " ++ Doc.parens (ctx.dialect.identsDoc a.columns)).Leads ctx (Loose opened)
      (Loose opened) :=
    .behind rfl (.parens (guarded.identsDoc a.columns))
  exact (Doc.Leads.behind rfl (guarded.identDoc a.name)).trail (.when columns)

theorem sound_namedTable (guarded : ctx.dialect.Guarded) (t : NamedTable) :
    (Render.namedTable ctx.dialect.toStyle t).Sound ctx := by
  intro opened
  have only : (Doc.when (t.inheritance = .only) (Doc.require .only ++ Doc.text "ONLY ")).Leads ctx
      (Clear opened) (Clear opened) :=
    .when (.append .require (.text (.steady rfl)))
  have star : (Doc.when (t.inheritance = .withDescendants)
      (Doc.require .descendants ++ Doc.text " *")).Leads ctx (Loose opened) (Loose opened) :=
    .when (.append .require (.loosen (.text (.ofBreak rfl))))
  have name := (only.append (guarded.qualifier t.schema opened)).append (guarded.identDoc t.name opened)
  exact (name.trail star).trail (leads_tableAlias guarded t.correlation)

theorem steady_join (kind : JoinKind) : Text.turns (kind.keyword ++ " ") [] [] = true := by
  cases kind <;> rfl

theorem sound_usingJoin (guarded : ctx.dialect.Guarded) (kind : JoinKind) (columns : List Identifier)
    {table : Drawn .tableRef} (below : table.Sound ctx) :
    (Render.usingJoin ctx.dialect.toStyle kind columns table).Sound ctx := by
  intro opened
  have head := (Doc.Leads.text (.steady (steady_join kind))).append (below opened)
  exact head.spaced rfl (Doc.Sound.parens (guarded.identsDoc columns) opened)

theorem sound_onJoin (kind : JoinKind) {table : Drawn .tableRef} {on : Drawn .predicate}
    (atTable : table.Sound ctx) (atCondition : on.Sound ctx) : (Render.onJoin kind table on).Sound ctx := by
  intro opened
  have head := (Doc.Leads.text (.steady (steady_join kind))).append (atTable opened)
  exact head.spaced rfl (atCondition opened)

theorem plain_number (n : UInt64) : Text.isPlain (Render.number n) = true :=
  Text.isPlain_number n.toNat

/-- The row window may follow any clause. -/
theorem leads_pagination (style : Style) (window : Option LimitOffset) (ordered : Bool) :
    (Render.pagination style window ordered).Leads ctx (Loose opened) (Loose opened) := by
  have counted : ∀ {word : String} (n : UInt64), Text.isPlain word = true →
      Text.Leads (word ++ number n) (Clear opened) (Clear opened) := fun n plain =>
    .append (.plain plain) (.plain (plain_number n))
  unfold Render.pagination
  split
  · exact .empty
  · split
    · exact .empty
    · split
      · refine .trail (.ofOption fun n _ => ?_) (.ofOption fun n _ => ?_)
        · exact .loosen (.clause (counted n rfl))
        · exact .loosen (.clause (counted n rfl))
      · refine .trail (.append (.when .note) ?_) (.ofOption fun n _ => ?_)
        · exact .loosen (.clause (.append (counted _ rfl) (.steady rfl)))
        · exact .loosen (.clause (.append (counted n rfl) (.steady rfl)))
      · exact .empty

theorem leads_top (style : Style) (window : Option LimitOffset) :
    (Render.top style window).Leads ctx (Loose opened) (Loose opened) := by
  unfold Render.top
  split
  · split
    · exact .fail
    · exact .ofOption fun n _ => .loosen (.text (.append (.ofBreak rfl) (.plain (plain_number n))))
  · exact .empty

theorem leads_compositeTop {P : Scan → Prop} (style : Style) (window : Option LimitOffset) :
    (Render.compositeTop style window).Leads ctx P P := by
  unfold Render.compositeTop
  split
  · split
    · exact .fail
    · split
      · exact .fail
      · exact .empty
  · exact .empty

theorem sound_term {q : Drawn .query} (below : q.Sound ctx) : (Render.term q).Sound ctx := by
  unfold Render.term
  split
  · exact below
  · exact .block below

theorem leads_terms (ops : List SetOperator) {queries : List (Drawn .query)}
    (below : ∀ q ∈ queries, q.Sound ctx) :
    (Render.terms ops queries).Leads ctx (Loose opened) (Loose opened) := by
  induction queries generalizing ops with
  | nil => cases ops <;> exact .empty
  | cons q rest ih =>
    cases ops with
    | nil => exact .empty
    | cons op ops =>
      have keyword : Text.turns op.keyword [] [] = true := by cases op <;> rfl
      have first := sound_term (below q (List.mem_cons_self ..)) opened
      have others := ih ops fun other member => below other (List.mem_cons_of_mem _ member)
      exact ((Doc.Leads.clause (.steady keyword)).loosen.spaced rfl first).trail others

theorem sound_composite (style : Style) (ops : List SetOperator) {queries : List (Drawn .query)}
    {order : Option (Drawn .orderBy)} (window : Option (Drawn .limitOffset))
    (atQueries : ∀ q ∈ queries, q.Sound ctx) (atOrder : ∀ o ∈ order, o.Sound ctx) :
    (Render.composite style ops queries order window).Sound ctx := by
  intro opened
  refine .trail (.trail (.append (leads_compositeTop style _) ?_) ?_) (leads_pagination style _ _)
  · cases queries with
    | nil => exact .fail
    | cons first rest =>
      exact (sound_term (atQueries first (List.mem_cons_self ..)) opened).trail
        (leads_terms ops fun q member => atQueries q (List.mem_cons_of_mem _ member))
  · exact .ofOption fun o member => .onward (atOrder o member)

theorem sound_select (style : Style) {s : SelectParts Drawn}
    (below : Fill.All (Drawn.Sound ctx) Form.select.slots s.toFill) : (Render.select style s).Sound ctx := by
  intro opened
  obtain ⟨distinct, items, source, joins, filter, groups, having, windows, order, _, lock, _⟩ := below
  have head : (Doc.text "SELECT").Leads ctx (Clear opened) (Loose opened) := .loosen (.text (.steady rfl))
  refine .trail (.trail (.trail (.trail (.trail (.trail (.trail (.trail (.trail (.spaced (.trail (.trail
    (.trail head ?_) (leads_top style _)) (.when .fail)) rfl (sound_list items opened)) ?_) ?_) ?_) ?_) ?_)
    ?_) ?_) (leads_pagination style _ _)) ?_
  · exact .ofOption fun d member => .behind rfl (distinct d member)
  · exact .ofOption fun t member => .append (.clause (.steady rfl)) (source t member opened)
  · exact .concat fun j member => .onward (joins j member)
  · exact .ofOption fun p member => .append (.clause (.steady rfl)) (filter p member opened)
  · exact .ofOption fun g member => .onward (groups g member)
  · exact .ofOption fun p member => .append (.clause (.steady rfl)) (having p member opened)
  · exact .when (.append (.clause (.steady rfl)) (sound_list windows opened))
  · exact .ofOption fun o member => .onward (order o member)
  · exact .ofOption fun l member => .onward (lock l member)

theorem sound_withQuery (recursive : Bool) {ctes : List (Drawn .cte)} {body : Drawn .query}
    (atCtes : ∀ c ∈ ctes, c.Sound ctx) (atBody : body.Sound ctx) :
    (Render.withQuery recursive ctes body).Sound ctx := by
  intro opened
  have word : Text.turns (if recursive then "WITH RECURSIVE " else "WITH ") [] [] = true := by
    cases recursive <;> rfl
  have head := (Doc.Leads.text (.steady word)).append (sound_list atCtes opened)
  exact (head.append .gap).append (atBody opened)

theorem sound_cte (guarded : ctx.dialect.Guarded) (name : Identifier) (columns : List Identifier)
    (m : Materialization) {body : Option (Drawn .query)} (below : ∀ q ∈ body, q.Sound ctx) :
    (Render.cte ctx.dialect.toStyle name columns m body).Sound ctx := by
  intro opened
  cases body with
  | none => exact .fail
  | some q =>
    have hint : (Render.materialization m).Leads ctx (Clear opened) (Clear opened) := by
      cases m with
      | default => exact .empty
      | materialized | notMaterialized => exact .append .require (.text (.steady rfl))
    refine .append (.spaced (.trail (guarded.identDoc name opened) ?_) rfl hint)
      (Doc.Sound.block (below q rfl) opened)
    exact .when (Doc.Leads.parens (guarded.identsDoc columns)).loosen

theorem sound_orderItem (style : Style) (dir : Option Direction) (nulls : Option Nulls) {e : Drawn .expr}
    (below : e.Sound ctx) : (Render.orderItem style dir nulls e).Sound ctx := by
  intro opened
  refine .trail (.trail (.append (.ofOption (P := Clear opened) fun n _ => ?_) (below opened)) ?_) ?_
  · refine .append (.append (.text (.steady rfl)) (below opened)) (.text (.ofBreak ?_))
    cases n <;> rfl
  · refine .ofOption fun d _ => ?_
    cases d <;> exact .loosen (.text (.ofBreak rfl))
  · refine .when (.ofOption fun n _ => .loosen (.text (.ofBreak ?_)))
    cases n <;> rfl

theorem sound_locking (guarded : ctx.dialect.Guarded) (l : Locking) :
    (Render.locking ctx.dialect.toStyle l).Sound ctx := by
  intro opened
  refine .trail (.trail (.trail ?_ (.when (.behind rfl ?_))) (.when ?_)) (.when ?_)
  · cases l.mode with
    | update => exact .loosen (.text (.steady rfl))
    | share | noKeyUpdate | keyShare => exact .append .require (.loosen (.text (.steady rfl)))
  · refine Doc.Sound.separated rfl fun d member => ?_
    obtain ⟨name, _, rfl⟩ := List.mem_map.mp member
    exact guarded.nameDoc name
  · exact .append .require (.loosen (.text (.ofBreak rfl)))
  · exact .append .require (.loosen (.text (.ofBreak rfl)))

theorem steady_exclusion (x : FrameExclusion) : Text.turns x.keyword [] [] = true := by
  cases x <;> rfl

/-- Before what is excluded a space stands only when there are clauses to set it apart from. -/
theorem sound_windowSpec (exclude : Option FrameExclusion) {partition : Option (Drawn .partitionBy)}
    {order : Option (Drawn .orderBy)} {frame : Option (Drawn .frame)}
    (atPartition : ∀ p ∈ partition, p.Sound ctx) (atOrder : ∀ o ∈ order, o.Sound ctx)
    (atFrame : ∀ f ∈ frame, f.Sound ctx) : (Render.windowSpec exclude partition order frame).Sound ctx := by
  intro opened
  have all := List.forall_mem_append.mpr ⟨List.forall_mem_append.mpr
    ⟨Drawn.forall_mem_values atPartition, Drawn.forall_mem_values atOrder⟩, Drawn.forall_mem_values atFrame⟩
  simp only [Render.windowSpec]
  generalize _ ++ _ ++ (frame.map (·.value)).toList = clauses at all
  cases clauses with
  | nil =>
    refine .loosen (.append .empty (.ofOption fun x _ => ?_))
    exact .append (.append .require .empty) (.text (.steady (steady_exclusion x)))
  | cons d rest =>
    refine .trail (Doc.Sound.separated rfl all opened) (.ofOption fun x _ => ?_)
    exact .loosen (Doc.Leads.require.spaced rfl (.text (.steady (steady_exclusion x))))

theorem steady_frameUnit (unit : FrameUnit) :
    (Render.frameUnit unit).Leads ctx (Clear opened) (Clear opened) := by
  cases unit with
  | rows | range => exact .text (.steady rfl)
  | groups => exact .append .require (.text (.steady rfl))

end Render

end SqlTree

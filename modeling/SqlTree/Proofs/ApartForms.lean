import SqlTree.Proofs.Apart
import SqlTree.Proofs.Drawn

namespace SqlTree

open Text

/-- The document of a node runs into no placeholder. -/
def Drawn.Apart {k : Kind} (part : Drawn k) : Prop :=
  part.value.Apart false true

namespace Render

variable {style : Style}

theorem apart_list {k : Kind} {parts : List (Drawn k)} (below : ∀ part ∈ parts, part.Apart) :
    (Render.list parts).Apart false true := by
  refine .separated rfl fun d member => ?_
  obtain ⟨part, mem, rfl⟩ := List.mem_map.mp member
  exact below part mem

theorem apart_operand {e : Drawn .expr} (wrap : Nat → Bool) (below : e.Apart) :
    (Render.operand wrap e).Apart false true := by
  unfold Render.operand
  split
  · split
    · exact .parens below
    · exact below
  · exact below

theorem apart_tight {e : Drawn .expr} (below : e.Apart) : (Render.tight e).Apart false true :=
  apart_operand _ below

theorem apart_side {e : Drawn .expr} (below : e.Apart) : (Render.side e).Apart false true :=
  apart_operand _ below

/-- What follows the arguments of a call may follow a placeholder. -/
theorem apart_callTail {groups : Option (Drawn .orderBy)} {filter : Option (Drawn .predicate)}
    {window : Option (Drawn .overClause)} (atGroups : ∀ o ∈ groups, o.Apart)
    (atFilter : ∀ p ∈ filter, p.Apart) (atWindow : ∀ o ∈ window, o.Apart) :
    (Render.callTail groups filter window).Apart true true := by
  refine .append (.ofOption fun o member => ?_)
    (.append (.ofOption fun p member => ?_) (.ofOption fun o member => ?_))
  · exact Doc.Apart.require.spaced rfl (.parens (atGroups o member))
  · exact Doc.Apart.require.spaced rfl (.parens (.lead (atFilter p member)))
  · exact .behind rfl (atWindow o member)

theorem apart_call (name : QualifiedName) (distinct : Bool) {arguments tail : Doc}
    (atArguments : arguments.Apart false true) (atTail : tail.Apart true true) :
    (Render.call style name distinct arguments tail).Apart false true := by
  have inner : (Doc.when distinct (Doc.text "DISTINCT ") ++ arguments).Apart false true :=
    .append (.when (.plain rfl)) atArguments
  exact .trail (.append (.plain rfl) (.parens inner)) atTail

theorem apart_case {subject otherwise : Option (Drawn .expr)} {arms : List (Drawn .expr × Drawn .expr)}
    (atSubject : ∀ e ∈ subject, e.Apart) (atArms : ∀ arm ∈ arms, arm.1.Apart ∧ arm.2.Apart)
    (atOtherwise : ∀ e ∈ otherwise, e.Apart) : (Render.case subject arms otherwise).Apart false true := by
  have head : (Doc.text "CASE").Apart false true := .loosen (.plain rfl)
  refine .trail (.trail (.trail (.trail head ?_) (.concat fun arm member => ?_)) ?_) (.separating rfl)
  · exact .ofOption fun e member => .behind rfl (atSubject e member)
  · exact .spaced (.behind rfl (atArms arm member).1) rfl (atArms arm member).2
  · exact .ofOption fun e member => .behind rfl (atOtherwise e member)

theorem apart_arithmetic (op : ArithmeticOp) {lhs rhs : Drawn .expr} (left : lhs.Apart) (right : rhs.Apart) :
    (Render.arithmetic style op lhs rhs).Apart false true := by
  have symbol : isSeparating (" " ++ style.arithmetic op ++ " ") = true :=
    isSeparating.append (isSeparating.append rfl _) _
  exact .spaced (.append (.when .require) (apart_operand _ left)) symbol (apart_operand _ right)

theorem apart_negate {e : Drawn .expr} (below : e.Apart) : (Render.negate e).Apart false true := by
  refine .lead ?_
  split
  · exact .parens below
  · exact .afterMinus below

theorem apart_typeName (base : TypeBase) (dims : UInt32) (zone : TimeZoneSpec) {modifiers : List (Drawn .expr)}
    (below : ∀ e ∈ modifiers, e.Apart) :
    (Render.typeName style base dims zone modifiers).Apart false true := by
  refine .loosen (.append (.append (.append ?_ (.when (.parens (apart_list below)))) ?_)
    (.when (.plain rfl)))
  · cases base <;> exact .plain rfl
  · cases zone <;> exact .plain rfl

theorem apart_comparison (op : ComparisonOp) {lhs rhs : Drawn .expr} (left : lhs.Apart) (right : rhs.Apart) :
    (Render.comparison style op lhs rhs).Apart false true :=
  .spaced (apart_side left) (isSeparating.append (isSeparating.append rfl _) _) (apart_side right)

theorem apart_between (symmetric : Bool) {e low high : Drawn .expr} (atValue : e.Apart) (atLow : low.Apart)
    (atHigh : high.Apart) : (Render.between symmetric e low high).Apart false true := by
  have symmetry : (Doc.when symmetric (Doc.require .symmetricBetween ++ Doc.text "SYMMETRIC ")).Apart
      false false :=
    .when (.plain rfl)
  exact .spaced (.append (.spaced (apart_side atValue) rfl symmetry) (apart_side atLow)) rfl
    (apart_side atHigh)

theorem apart_like (negated : Bool) {e pattern : Drawn .expr} {escape : Option (Drawn .expr)}
    (atValue : e.Apart) (atPattern : pattern.Apart) (atEscape : ∀ x ∈ escape, x.Apart) :
    (Render.like negated e pattern escape).Apart false true := by
  have word : isSeparating (if negated then " NOT LIKE " else " LIKE ") = true := by cases negated <;> rfl
  exact .trail (.spaced (apart_side atValue) word (apart_side atPattern))
    (.ofOption fun x member => .behind rfl (apart_side (atEscape x member)))

theorem apart_quantified (op : ComparisonOp) (quantifier : Quantifier) {e : Drawn .expr}
    {query : Drawn .query} (atValue : e.Apart) (atQuery : query.Apart) :
    (Render.quantified style op quantifier e query).Apart false true := by
  have symbol : isSeparating (" " ++ style.comparison op) = true := isSeparating.append rfl _
  exact .append (.spaced (apart_side atValue) symbol (.plain rfl)) (.loosen (.block atQuery))

theorem apart_negation {p : Drawn .predicate} (below : p.Apart) : (Render.negation p).Apart false true := by
  refine .lead ?_
  split
  · exact .parens below
  · exact below

theorem apart_joined (op : LogicalOp) {p : Drawn .predicate} (below : p.Apart) :
    (Render.joined op p).Apart false true := by
  unfold Render.joined
  split
  · exact .parens below
  · exact below

theorem apart_connective (op : LogicalOp) {lhs rhs : Drawn .predicate} (left : lhs.Apart)
    (right : rhs.Apart) : (Render.connective op lhs rhs).Apart false true := by
  refine .spaced (apart_joined op left) ?_ (apart_joined op right)
  cases op <;> rfl

/-- An alias may follow any table. -/
theorem apart_tableAlias (correlation : Option TableAlias) :
    (Render.tableAlias style correlation).Apart true true := by
  refine .ofOption fun a _ => .loosen (.append (.behind rfl (.plain rfl)) (.when (.plain ?_)))
  simp

/-- The row window may follow any clause. -/
theorem apart_pagination (window : Option LimitOffset) (ordered : Bool) :
    (Render.pagination style window ordered).Apart true true := by
  have clause : ∀ {s : String}, (Doc.clause s).Apart true true := .loosen (.onward (.plain rfl))
  unfold Render.pagination
  split
  · exact .empty
  · split
    · exact .empty
    · split
      · exact .append (.ofOption fun _ _ => clause) (.ofOption fun _ _ => clause)
      · exact .append (.append (.when .note) clause) (.ofOption fun _ _ => clause)
      · exact .empty

theorem apart_top (window : Option LimitOffset) : (Render.top style window).Apart true true := by
  unfold Render.top
  split
  · split
    · exact .fail
    · exact .ofOption fun n _ => .separating (isSeparating.append rfl _)
  · exact .empty

theorem apart_compositeTop (window : Option LimitOffset) :
    (Render.compositeTop style window).Apart false false := by
  unfold Render.compositeTop
  split
  · split
    · exact .fail
    · split
      · exact .fail
      · exact .empty
  · exact .empty

theorem apart_term {q : Drawn .query} (below : q.Apart) : (Render.term q).Apart false true := by
  unfold Render.term
  split
  · exact below
  · exact .loosen (.block below)

theorem apart_terms (ops : List SetOperator) {queries : List (Drawn .query)}
    (below : ∀ q ∈ queries, q.Apart) : (Render.terms ops queries).Apart true true := by
  induction queries generalizing ops with
  | nil => cases ops <;> exact .empty
  | cons q rest ih =>
    cases ops with
    | nil => exact .empty
    | cons op ops =>
      have first := apart_term (below q (List.mem_cons_self ..))
      have others := ih ops fun other member => below other (List.mem_cons_of_mem _ member)
      exact .trail (.append (.clause (.plain rfl)) first) others

theorem apart_composite (ops : List SetOperator) {queries : List (Drawn .query)}
    {order : Option (Drawn .orderBy)} (window : Option (Drawn .limitOffset))
    (atQueries : ∀ q ∈ queries, q.Apart) (atOrder : ∀ o ∈ order, o.Apart) :
    (Render.composite style ops queries order window).Apart false true := by
  refine .trail (.trail (.append (apart_compositeTop _) ?_) ?_) (apart_pagination _ _)
  · cases queries with
    | nil => exact .loosen .fail
    | cons first rest =>
      exact .trail (apart_term (atQueries first (List.mem_cons_self ..)))
        (apart_terms ops fun q member => atQueries q (List.mem_cons_of_mem _ member))
  · exact .ofOption fun o member => .onward (atOrder o member)

theorem apart_select {s : SelectParts Drawn}
    (below : Fill.All (fun part => part.Apart) Form.select.slots s.toFill) :
    (Render.select style s).Apart false true := by
  obtain ⟨distinct, items, source, joins, filter, groups, having, windows, order, _, lock, _⟩ := below
  have head : (Doc.text "SELECT").Apart false true := .loosen (.plain rfl)
  refine .trail (.trail (.trail (.trail (.trail (.trail (.trail (.trail (.trail (.spaced (.trail (.trail
    (.trail head ?_) (apart_top _)) (.when .fail)) rfl (apart_list items)) ?_) ?_) ?_) ?_) ?_) ?_) ?_)
    (apart_pagination _ _)) ?_
  · exact .ofOption fun d member => .behind rfl (distinct d member)
  · exact .ofOption fun t member => .clause (source t member)
  · exact .concat fun j member => .onward (joins j member)
  · exact .ofOption fun p member => .clause (filter p member)
  · exact .ofOption fun g member => .onward (groups g member)
  · exact .ofOption fun p member => .clause (having p member)
  · exact .when (.clause (apart_list windows))
  · exact .ofOption fun o member => .onward (order o member)
  · exact .ofOption fun l member => .onward (lock l member)

theorem apart_withQuery (recursive : Bool) {ctes : List (Drawn .cte)} {body : Drawn .query}
    (atCtes : ∀ c ∈ ctes, c.Apart) (atBody : body.Apart) :
    (Render.withQuery recursive ctes body).Apart false true :=
  .append (.append (.lead (apart_list atCtes)) .gap) atBody

theorem apart_cte (name : Identifier) (columns : List Identifier) (m : Materialization)
    {body : Option (Drawn .query)} (atBody : ∀ q ∈ body, q.Apart) :
    (Render.cte style name columns m body).Apart false true := by
  cases body with
  | none => exact .loosen .fail
  | some q => exact .append (.plain (by simp)) (.loosen (.block (atBody q rfl)))

/-- Where the key is written twice, text stands between the two. -/
theorem apart_orderItem (dir : Option Direction) (nulls : Option Nulls) {e : Drawn .expr} (below : e.Apart) :
    (Render.orderItem style dir nulls e).Apart false true := by
  refine .trail (.trail (.append (.ofOption fun n _ => ?_) below) (.ofOption fun d _ => ?_))
    (.when (.ofOption fun n _ => ?_))
  · exact .append (.lead below) (.separating (by cases n <;> rfl))
  · cases d <;> exact .separating rfl
  · exact .separating (isSeparating.append rfl _)

/-- Before what is excluded a space stands only when there are clauses to set it apart from. -/
theorem apart_windowSpec (exclude : Option FrameExclusion) {partition : Option (Drawn .partitionBy)}
    {order : Option (Drawn .orderBy)} {frame : Option (Drawn .frame)}
    (atPartition : ∀ p ∈ partition, p.Apart) (atOrder : ∀ o ∈ order, o.Apart)
    (atFrame : ∀ f ∈ frame, f.Apart) : (Render.windowSpec exclude partition order frame).Apart false true := by
  have all := List.forall_mem_append.mpr ⟨List.forall_mem_append.mpr
    ⟨Drawn.forall_mem_values atPartition, Drawn.forall_mem_values atOrder⟩, Drawn.forall_mem_values atFrame⟩
  simp only [Render.windowSpec]
  generalize _ ++ _ ++ (frame.map (·.value)).toList = clauses at all
  cases clauses with
  | nil =>
    refine .loosen (.append .empty (.ofOption fun x _ => ?_))
    exact .append (.append .require .empty) (.plain rfl)
  | cons d rest =>
    refine .trail (.separated rfl all) (.ofOption fun x _ => ?_)
    exact .loosen (.spaced .require rfl (.plain rfl))

end Render

open Render

/-- Where the documents below a node run into no placeholder, its standard document does not. -/
theorem Render.apart_standard (style : Style) {k : Kind} (form : Form k) {parts : Fill Drawn form.slots}
    (below : Fill.All (fun part => part.Apart) form.slots parts) :
    (Render.standard style form parts).Apart false true := by
  cases form with
  | expr => exact below.1
  | literal value => exact .loosen (.plain (by cases value <;> rfl))
  | column c => exact .loosen (.plain (by cases h : c.qualifier <;> simp [Render.standard, Style.columnDoc, h]))
  | param p => exact .param
  | call name distinct =>
    obtain ⟨arguments, groups, filter, window, _⟩ := below
    exact apart_call name distinct (apart_list arguments) (apart_callTail groups filter window)
  | callStar name distinct =>
    obtain ⟨groups, filter, window, _⟩ := below
    exact apart_call name distinct (.loosen (.plain rfl)) (apart_callTail groups filter window)
  | case =>
    obtain ⟨subject, arms, otherwise, _⟩ := below
    exact apart_case subject arms otherwise
  | arithmetic op => exact apart_arithmetic op below.1 below.2.1
  | negate => exact apart_negate below.1
  | customBinary op =>
    exact .spaced (.loosen (.spaced (apart_tight below.1) rfl (.plain (by simp)))) rfl (apart_tight below.2.1)
  | customUnary op => exact .spaced (.loosen (.plain (by simp))) rfl (apart_tight below.1)
  | cast => exact .append (.spaced (.lead below.1) rfl below.2.1) (.separating rfl)
  | typeName base dims zone => exact apart_typeName base dims zone below.1
  | array => exact .append (.append (.plain rfl) (apart_list below.1)) (.separating rfl)
  | row => exact .parens (apart_list below.1)
  | rowList => exact apart_list below.1
  | subquery => exact .loosen (.block below.1)
  | collate collation => exact .loosen (.spaced (apart_tight below.1) rfl (.plain rfl))
  | atTimeZone => exact .spaced (.append .require (apart_tight below.1)) rfl (apart_tight below.2.1)
  | predicate => exact below.1
  | comparison op => exact apart_comparison op below.1 below.2.1
  | between symmetric => exact apart_between symmetric below.1 below.2.1 below.2.2.1
  | like negated => exact apart_like negated below.1 below.2.1 below.2.2.1
  | isNull negated => exact .trail (apart_side below.1) (.separating (by cases negated <;> rfl))
  | isDistinctFrom negated =>
    exact .spaced (.append .require (apart_side below.1)) (by cases negated <;> rfl) (apart_side below.2.1)
  | membership negated => exact .spaced (apart_side below.1) (by cases negated <;> rfl) below.2.1
  | existence negated => exact .lead (.loosen (.block below.1))
  | quantified op quantifier => exact apart_quantified op quantifier below.1 below.2.1
  | condition => exact below.1
  | negation => exact apart_negation below.1
  | connective op => exact apart_connective op below.1 below.2.1
  | valueSet variant =>
    cases variant with
    | query => exact .loosen (.block below.1)
    | row => exact below.1
    | rowList => exact .parens below.1
  | tableRef => exact below.1
  | namedTable t => exact .loosen (.plain (by simp [Render.standard]))
  | subqueryTable correlation => exact .trail (.loosen (.block below.1)) (apart_tableAlias correlation)
  | valuesTable correlation => exact .trail (.parens (.lead below.1)) (apart_tableAlias correlation)
  | functionTable correlation => exact .trail below.1 (apart_tableAlias correlation)
  | lateralTable => exact .append (.plain rfl) below.1
  | join => exact below.1
  | crossJoin | naturalJoin => exact .lead below.1
  | usingJoin kind columns => exact .loosen (.spaced (.lead below.1) rfl (.plain (by simp)))
  | onJoin kind => exact .spaced (.lead below.1) rfl below.2.1
  | query => exact below.1
  | select => exact apart_select below
  | composite ops => exact apart_composite ops _ below.1 below.2.1
  | withQuery recursive => exact apart_withQuery recursive below.1 below.2.1
  | cte name columns m => exact apart_cte name columns m below.1
  | aliased name => exact .trail below.1 (.ofOption fun a _ => .loosen (.behind rfl (.plain rfl)))
  | star | distinct | overName | boundAt | limitOffset | qualifiedStar => exact .loosen (.plain rfl)
  | distinctOn => exact .append (.plain rfl) (.parens (apart_list below.1))
  | groupBy | orderBy | partitionBy => exact .lead (apart_list below.1)
  | orderItem dir nulls => exact apart_orderItem dir nulls below.1
  | locking l => exact .loosen (.plain (by simp [Render.standard]))
  | windowDef name => exact .append (.plain rfl) (.parens below.1)
  | windowSpec exclude => exact apart_windowSpec exclude below.1 below.2.1 below.2.2.1
  | overSpec => exact .parens below.1
  | frameFrom unit => exact .append (.plain (by simp)) below.1
  | frameBetween unit => exact .spaced (.append (.append (.plain (by simp)) (.plain rfl)) below.1) rfl below.2.1
  | boundOffset side => exact .trail below.1 (.separating (isSeparating.append rfl _))

/-- The document of a tree runs into no placeholder. -/
theorem Tree.apart_doc {style : Style} (standard : style.StandardRenderers) {k : Kind} (t : Tree k) :
    (t.doc style).Apart false true := by
  refine Tree.induction_below (Q := fun t => (t.doc style).Apart false true) (fun form below inside => ?_) t
  rw [Tree.doc_node standard]
  exact Render.apart_standard style form (Forest.all_drawn.mpr inside)

end SqlTree

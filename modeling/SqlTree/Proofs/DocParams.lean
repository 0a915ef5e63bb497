import SqlTree.Proofs.Filled
import SqlTree.Render.Form

/-!
The parameters of a document in written order. Every renderer writes the documents below a node in the
order of the slots and each of them once, but for the sort key that is written twice.
-/
namespace SqlTree

/-- The parameters of a document, in the order in which they are written. -/
def Doc.params : Doc → List Param
  | .empty | .text _ | .gap | .require _ | .fail _ | .note _ => []
  | .append first second => first.params ++ second.params
  | .block body | .afterMinus body => body.params
  | .param p _ => [p]

/-- The parameters that a node below writes. A row window is written by the query it belongs to. -/
def Drawn.params : {k : Kind} → Drawn k → List Param
  | .limitOffset, _ => []
  | _, part => part.value.params

/-- The parameters of the nodes that fill slots. -/
def Fill.params : (slots : List Slot) → Fill Drawn slots → List Param
  | [], _ => []
  | .one _ :: slots, (part, rest) => part.params ++ params slots rest
  | .opt _ :: slots, (part, rest) => part.toList.flatMap (fun p => p.params) ++ params slots rest
  | .many _ :: slots, (parts, rest) => parts.flatMap (fun p => p.params) ++ params slots rest
  | .arms :: slots, (arms, rest) =>
    arms.flatMap (fun arm => arm.1.params ++ arm.2.params) ++ params slots rest

@[simp]
theorem flatMap_nothing {α β : Type} (items : List α) : items.flatMap (fun _ => ([] : List β)) = [] := by
  induction items with
  | nil => rfl
  | cons _ _ ih => exact ih

theorem Drawn.params_of_ne {k : Kind} (part : Drawn k) (other : k ≠ .limitOffset) :
    part.params = part.value.params := by
  cases k
  case limitOffset => exact absurd rfl other
  all_goals rfl

/-- A sort key whose placement of nulls is emulated: what is below it is written twice. -/
def Form.isDoubled (nulls : NullSorting) : {k : Kind} → Form k → Bool
  | _, .orderItem dir placement => (nulls.emulated dir placement).isSome
  | _, _ => false

namespace Doc

@[simp] theorem params_empty : Doc.empty.params = [] := rfl

@[simp] theorem params_text (s : String) : (Doc.text s).params = [] := rfl

@[simp] theorem params_gap : Doc.gap.params = [] := rfl

@[simp] theorem params_require (construct : Construct) : (Doc.require construct).params = [] := rfl

@[simp] theorem params_fail (error : Error) : (Doc.fail error).params = [] := rfl

@[simp] theorem params_note (event : Event) : (Doc.note event).params = [] := rfl

@[simp]
theorem params_append (first second : Doc) : (first ++ second).params = first.params ++ second.params :=
  rfl

@[simp] theorem params_block (body : Doc) : (Doc.block body).params = body.params := rfl

@[simp] theorem params_afterMinus (body : Doc) : (Doc.afterMinus body).params = body.params := rfl

@[simp] theorem params_param (p : Param) (inline : Doc) : (Doc.param p inline).params = [p] := rfl

@[simp]
theorem params_parens (body : Doc) : (Doc.parens body).params = body.params := by
  simp [Doc.parens]

@[simp]
theorem params_when (condition : Bool) (body : Doc) :
    (Doc.when condition body).params = if condition then body.params else [] := by
  cases condition <;> rfl

@[simp]
theorem params_clause (keyword : String) : (Doc.clause keyword).params = [] := rfl

@[simp]
theorem params_ofOption {α : Type} (value : Option α) (body : α → Doc) :
    (Doc.ofOption value body).params = value.toList.flatMap fun a => (body a).params := by
  cases value <;> simp [Doc.ofOption]

@[simp]
theorem params_concat {α : Type} (items : List α) (body : α → Doc) :
    (Doc.concat (items.map body)).params = items.flatMap fun a => (body a).params := by
  induction items with
  | nil => rfl
  | cons a rest ih => exact congrArg ((body a).params ++ ·) ih

theorem params_separated {separator : Doc} (plain : separator.params = []) (docs : List Doc) :
    (Doc.separated separator docs).params = docs.flatMap Doc.params := by
  induction docs with
  | nil => rfl
  | cons d rest ih =>
    cases rest with
    | nil => simp [Doc.separated]
    | cons e rest => simp [Doc.separated, plain, ih]

@[simp]
theorem params_commas (docs : List Doc) : (Doc.commas docs).params = docs.flatMap Doc.params :=
  params_separated rfl docs

end Doc

namespace Style

variable (style : Style)

@[simp]
theorem params_identDoc (i : Identifier) : (style.identDoc i).params = [] := rfl

@[simp]
theorem params_nameDoc (n : QualifiedName) : (style.nameDoc n).params = [] := rfl

@[simp]
theorem params_identsDoc (is : List Identifier) : (style.identsDoc is).params = [] := by
  simp [Style.identsDoc, List.flatMap_map]

@[simp]
theorem params_operatorDoc (op : CustomOperator) : (style.operatorDoc op).params = [] := by
  unfold Style.operatorDoc
  cases op.schema <;> simp

end Style

namespace Render

variable (style : Style)

@[simp]
theorem params_list {k : Kind} (parts : List (Drawn k)) :
    (Render.list parts).params = parts.flatMap fun part => part.value.params := by
  simp [Render.list, List.flatMap_map]

@[simp]
theorem params_operand (wrap : Nat → Bool) (e : Drawn .expr) :
    (Render.operand wrap e).params = e.value.params := by
  unfold Render.operand
  split
  · split <;> simp
  · rfl

@[simp]
theorem params_tight (e : Drawn .expr) : (Render.tight e).params = e.value.params :=
  params_operand _ e

@[simp]
theorem params_side (e : Drawn .expr) : (Render.side e).params = e.value.params :=
  params_operand _ e

@[simp]
theorem params_callTail (groups : Option (Drawn .orderBy)) (filter : Option (Drawn .predicate))
    (window : Option (Drawn .overClause)) :
    (Render.callTail groups filter window).params =
      groups.toList.flatMap (fun part => part.value.params) ++
        (filter.toList.flatMap (fun part => part.value.params) ++
          window.toList.flatMap (fun part => part.value.params)) := by
  simp [Render.callTail]

@[simp]
theorem params_call (name : QualifiedName) (distinct : Bool) (arguments tail : Doc) :
    (Render.call style name distinct arguments tail).params = arguments.params ++ tail.params := by
  simp [Render.call]

@[simp]
theorem params_case (subject : Option (Drawn .expr)) (arms : List (Drawn .expr × Drawn .expr))
    (otherwise : Option (Drawn .expr)) :
    (Render.case subject arms otherwise).params =
      subject.toList.flatMap (fun part => part.value.params) ++
        (arms.flatMap (fun arm => arm.1.value.params ++ arm.2.value.params) ++
          otherwise.toList.flatMap (fun part => part.value.params)) := by
  simp [Render.case]

@[simp]
theorem params_arithmetic (op : ArithmeticOp) (lhs rhs : Drawn .expr) :
    (Render.arithmetic style op lhs rhs).params = lhs.value.params ++ rhs.value.params := by
  simp [Render.arithmetic]

@[simp]
theorem params_negate (e : Drawn .expr) : (Render.negate e).params = e.value.params := by
  unfold Render.negate
  split <;> simp

@[simp]
theorem params_negation (p : Drawn .predicate) : (Render.negation p).params = p.value.params := by
  unfold Render.negation
  split <;> simp

@[simp]
theorem params_joined (op : LogicalOp) (p : Drawn .predicate) :
    (Render.joined op p).params = p.value.params := by
  unfold Render.joined
  split <;> simp

@[simp]
theorem params_typeName (base : TypeBase) (dims : UInt32) (zone : TimeZoneSpec)
    (modifiers : List (Drawn .expr)) :
    (Render.typeName style base dims zone modifiers).params =
      modifiers.flatMap fun part => part.value.params := by
  unfold Render.typeName
  cases base <;> cases zone <;> cases modifiers <;> simp

@[simp]
theorem params_tableAlias (correlation : Option TableAlias) :
    (Render.tableAlias style correlation).params = [] := by
  simp [Render.tableAlias]

@[simp]
theorem params_namedTable (t : NamedTable) : (Render.namedTable style t).params = [] := by
  simp [Render.namedTable]

@[simp]
theorem params_pagination (window : Option LimitOffset) (ordered : Bool) :
    (Render.pagination style window ordered).params = [] := by
  unfold Render.pagination
  split
  · rfl
  · split
    · rfl
    · split <;> simp

@[simp]
theorem params_top (window : Option LimitOffset) : (Render.top style window).params = [] := by
  unfold Render.top
  split
  · split <;> simp
  · rfl

@[simp]
theorem params_compositeTop (window : Option LimitOffset) :
    (Render.compositeTop style window).params = [] := by
  unfold Render.compositeTop
  split
  · split
    · rfl
    · split <;> rfl
  · rfl

@[simp]
theorem params_term (q : Drawn .query) : (Render.term q).params = q.value.params := by
  unfold Render.term
  split <;> rfl

/-- Terms are written as long as there are operators before them. -/
theorem params_terms {ops : List SetOperator} {queries : List (Drawn .query)}
    (paired : ops.length = queries.length) :
    (Render.terms ops queries).params = queries.flatMap fun q => q.value.params := by
  induction ops generalizing queries with
  | nil =>
    cases queries with
    | nil => rfl
    | cons => cases paired
  | cons op ops ih =>
    cases queries with
    | nil => cases paired
    | cons q rest =>
      have paired' : ops.length = rest.length := Nat.succ.inj paired
      simp [Render.terms, ih paired']

theorem params_composite {ops : List SetOperator} {queries : List (Drawn .query)}
    (paired : ops.length = queries.length - 1) (order : Option (Drawn .orderBy))
    (window : Option (Drawn .limitOffset)) :
    (Render.composite style ops queries order window).params =
      queries.flatMap (fun q => q.value.params) ++ order.toList.flatMap (fun o => o.value.params) := by
  cases queries with
  | nil => simp [Render.composite]
  | cons first rest =>
    have paired' : ops.length = rest.length := paired
    simp [Render.composite, params_terms paired']

/-- The clauses of a SELECT, without the row window. -/
theorem params_select (s : SelectParts Drawn) :
    (Render.select style s).params =
      s.distinct.toList.flatMap (fun part => part.value.params) ++
        (s.items.flatMap (fun part => part.value.params) ++
        (s.source.toList.flatMap (fun part => part.value.params) ++
        (s.joins.flatMap (fun part => part.value.params) ++
        (s.filter.toList.flatMap (fun part => part.value.params) ++
        (s.groupBy.toList.flatMap (fun part => part.value.params) ++
        (s.having.toList.flatMap (fun part => part.value.params) ++
        (s.windows.flatMap (fun part => part.value.params) ++
        (s.orderBy.toList.flatMap (fun part => part.value.params) ++
        s.locking.toList.flatMap (fun part => part.value.params))))))))) := by
  obtain ⟨distinct, items, source, joins, filter, groups, having, windows, order, window, lock⟩ := s
  cases windows <;> simp [Render.select]

@[simp]
theorem params_materialization (m : Materialization) : (Render.materialization m).params = [] := by
  cases m <;> rfl

@[simp]
theorem params_cte (name : Identifier) (columns : List Identifier) (m : Materialization)
    (body : Option (Drawn .query)) :
    (Render.cte style name columns m body).params = body.toList.flatMap fun q => q.value.params := by
  cases body <;> simp [Render.cte]

/-- A sort key whose placement of nulls is emulated is written twice. -/
theorem params_orderItem (dir : Option Direction) (nulls : Option Nulls) (e : Drawn .expr) :
    (Render.orderItem style dir nulls e).params =
      if (style.nulls.emulated dir nulls).isSome then e.value.params ++ e.value.params
      else e.value.params := by
  have atDirection : ∀ d, (Render.direction d).params = [] := fun d => by cases d <;> rfl
  unfold Render.orderItem
  generalize style.nulls.emulated dir nulls = key
  cases key <;> simp [Render.nullsKey, atDirection]

@[simp]
theorem params_lockMode (mode : LockMode) : (Render.lockMode mode).params = [] := by
  cases mode <;> rfl

@[simp]
theorem params_locking (l : Locking) : (Render.locking style l).params = [] := by
  simp [Render.locking, List.flatMap_map]

@[simp]
theorem params_frameUnit (unit : FrameUnit) : (Render.frameUnit unit).params = [] := by
  cases unit <;> rfl

@[simp]
theorem params_windowSpec (exclude : Option FrameExclusion) (partition : Option (Drawn .partitionBy))
    (order : Option (Drawn .orderBy)) (frame : Option (Drawn .frame)) :
    (Render.windowSpec exclude partition order frame).params =
      partition.toList.flatMap (fun part => part.value.params) ++
        order.toList.flatMap (fun part => part.value.params) ++
        frame.toList.flatMap (fun part => part.value.params) := by
  have plain : (Doc.text " ").params = [] := rfl
  simp only [Render.windowSpec, Doc.params_append, Doc.params_separated plain]
  cases partition <;> cases order <;> cases frame <;> simp

end Render

/-- A node writes the parameters of the nodes below it in the order of the slots, once each, except that
a sort key whose placement of nulls is emulated is written twice. -/
theorem Render.params_standard (style : Style) {k : Kind} (form : Form k) (parts : Fill Drawn form.slots)
    (checked : form.check parts = .ok ()) (other : k ≠ .param) :
    (Render.standard style form parts).params =
      if form.isDoubled style.nulls then Fill.params form.slots parts ++ Fill.params form.slots parts
      else Fill.params form.slots parts := by
  cases form with
  | param => exact absurd rfl other
  | literal value => cases value <;> rfl
  | column c =>
    cases h : c.qualifier <;> simp [Render.standard, Style.columnDoc, h, Form.isDoubled, Fill.params]
  | expr variant | predicate variant | tableRef variant | join variant | query variant
  | valueSet variant =>
    cases variant <;> simp [Render.standard, Form.isDoubled, Fill.params, Drawn.params]
  | comparison | between | like | isNull | isDistinctFrom | membership | existence | quantified
  | connective =>
    simp [Render.standard, Form.isDoubled, Fill.params, Drawn.params, Render.comparison, Render.between,
      Render.like, Render.isNull, Render.isDistinctFrom, Render.membership, Render.existence,
      Render.quantified, Render.connective]
  | customBinary | customUnary | collate | atTimeZone =>
    simp [Render.standard, Form.isDoubled, Fill.params, Drawn.params, Render.customBinary,
      Render.customUnary, Render.collate, Render.atTimeZone]
  | usingJoin | onJoin | withQuery | frameBetween =>
    simp [Render.standard, Form.isDoubled, Fill.params, Drawn.params, Render.usingJoin, Render.onJoin,
      Render.withQuery, Render.frameBetween]
  | orderItem dir nulls =>
    simp [Render.standard, Render.params_orderItem, Form.isDoubled, Fill.params, Drawn.params]
  | composite ops =>
    have paired : ops.length = parts.1.length - 1 := (Form.composite_paired checked).2
    simp [Render.standard, Render.params_composite style paired, Form.isDoubled, Fill.params, Drawn.params]
  | select =>
    simp [Render.standard, Render.params_select, SelectParts.ofFill, Form.isDoubled, Fill.params,
      Drawn.params]
  | _ => simp [Render.standard, Form.isDoubled, Fill.params, Drawn.params]

end SqlTree

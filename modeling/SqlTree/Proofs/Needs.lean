import SqlTree.Proofs.Demands
import SqlTree.Proofs.Drawn

namespace SqlTree

def ArithmeticOp.construct? : ArithmeticOp → Option Construct
  | .pow => some .power
  | _ => none

def TimeZoneSpec.construct? : TimeZoneSpec → Option Construct
  | .none => Option.none
  | .withTimeZone => some .withTimeZone
  | .withoutTimeZone => some .withoutTimeZone

def Inheritance.construct? : Inheritance → Option Construct
  | .default => none
  | .only => some .only
  | .withDescendants => some .descendants

def Materialization.construct? : Materialization → Option Construct
  | .default => none
  | .materialized => some .materialized
  | .notMaterialized => some .notMaterialized

def LockMode.construct? : LockMode → Option Construct
  | .update => none
  | .share => some .forShare
  | .noKeyUpdate => some .forNoKeyUpdate
  | .keyShare => some .forKeyShare

def FrameUnit.construct? : FrameUnit → Option Construct
  | .groups => some .groupsFrame
  | _ => none

/-- The constructs of a list that are there. -/
def Construct.present (constructs : List (Bool × Construct)) : List Construct :=
  constructs.filterMap fun (there, construct) => if there then some construct else none

@[simp]
theorem Construct.mem_present {constructs : List (Bool × Construct)} {c : Construct} :
    c ∈ Construct.present constructs ↔ (true, c) ∈ constructs := by
  simp only [Construct.present, List.mem_filterMap, Prod.exists]
  constructor
  · rintro ⟨there, construct, member, found⟩
    cases there with
    | true =>
      cases found
      exact member
    | false => cases found
  · exact fun member => ⟨true, c, member, rfl⟩

/-- The constructs of the clauses that follow the arguments of a call. -/
def Form.callConstructs {α β : Type} (withinGroup : Option α) (filter : Option β) : List Construct :=
  Construct.present [(withinGroup.isSome, .withinGroup), (filter.isSome, .filter)]

/-- The constructs that a node itself is written with, whatever is below it. -/
def Form.constructs {α : Kind → Type} : {k : Kind} → (form : Form k) → Fill α form.slots → List Construct
  | _, .literal value, _ => value.construct?.toList
  | _, .param p, _ => (p.value.bind Literal.construct?).toList
  | _, .call _ _, parts => callConstructs parts.2.1 parts.2.2.1
  | _, .callStar _ _, parts => callConstructs parts.1 parts.2.1
  | _, .arithmetic op, _ => op.construct?.toList
  | _, .customBinary _, _ | _, .customUnary _, _ => [.customOperator]
  | _, .typeName _ dims zone, _ => zone.construct?.toList ++ Construct.present [(dims ≠ 0, .arrayType)]
  | _, .array, _ => [.arrayLiteral]
  | _, .atTimeZone, _ => [.atTimeZone]
  | _, .between symmetric, _ => Construct.present [(symmetric, .symmetricBetween)]
  | _, .isDistinctFrom _, _ => [.isDistinctFrom]
  | _, .namedTable t, _ => t.inheritance.construct?.toList
  | _, .lateralTable, _ => [.lateral]
  | _, .cte _ _ m, _ => m.construct?.toList
  | _, .distinctOn, _ => [.distinctOn]
  | _, .locking l, _ =>
    l.mode.construct?.toList ++ Construct.present [(l.nowait, .nowait), (l.skipLocked, .skipLocked)]
  | _, .windowSpec exclude, _ => Construct.present [(exclude.isSome, .exclude)]
  | _, .frameFrom unit, _ | _, .frameBetween unit, _ => unit.construct?.toList
  | _, _, _ => []

namespace Style

/-- What TOP cannot say of the row window of a SELECT. -/
def topFailures (style : Style) (window : Option LimitOffset) : List Error :=
  match style.pagination, window with
  | .top, some ⟨_, some _⟩ => [.offsetWithTop style.name]
  | _, _ => []

/-- The errors with which a SELECT cannot be written, by its row window and whether it has no items. -/
def selectFailures (style : Style) (window : Option LimitOffset) (empty : Bool) : List Error :=
  style.topFailures window ++ if empty then [.invalid .emptySelect] else []

/-- What TOP cannot say of the row window of a set operation. -/
def compositeFailures (style : Style) (window : Option LimitOffset) : List Error :=
  match style.pagination, window with
  | .top, some ⟨_, some _⟩ => [.offsetWithTop style.name]
  | .top, some ⟨some _, none⟩ => [.limitWithTop style.name]
  | _, _ => []

end Style

/-- The errors with which a node itself cannot be written. -/
def Form.failures (style : Style) : {k : Kind} → (form : Form k) → Fill Tree form.slots → List Error
  | _, .select, parts =>
    let s := SelectParts.ofFill parts
    style.selectFailures (s.limitOffset.map (·.window)) s.items.isEmpty
  | _, .composite _, parts => style.compositeFailures (parts.2.2.1.map (·.window))
  | _, .cte name _ _, parts => if parts.1.isNone then [.invalid (.noBody name.value)] else []
  | _, _, _ => []

/-- All demands of a document, where values are written, have a property. -/
def Doc.Meets (P : Demand → Prop) (d : Doc) : Prop :=
  ∀ x ∈ d.demands .inline, P x

/-- The same for what a node below writes. A row window is written by the query it belongs to. -/
def Drawn.Meets (P : Demand → Prop) : {k : Kind} → Drawn k → Prop
  | .limitOffset, _ => True
  | _, part => part.value.Meets P

variable {P : Demand → Prop}

namespace Doc

@[simp] theorem meets_empty : Doc.empty.Meets P := nofun

@[simp] theorem meets_text (s : String) : (Doc.text s).Meets P := nofun

@[simp] theorem meets_gap : Doc.gap.Meets P := nofun

@[simp] theorem meets_note (event : Event) : (Doc.note event).Meets P := nofun

@[simp]
theorem meets_append (first second : Doc) : (first ++ second).Meets P ↔ first.Meets P ∧ second.Meets P :=
  List.forall_mem_append

@[simp] theorem meets_block (body : Doc) : (Doc.block body).Meets P ↔ body.Meets P := Iff.rfl

@[simp] theorem meets_afterMinus (body : Doc) : (Doc.afterMinus body).Meets P ↔ body.Meets P := Iff.rfl

@[simp]
theorem meets_require (construct : Construct) : (Doc.require construct).Meets P ↔ P (.construct construct) :=
  List.forall_mem_singleton

@[simp]
theorem meets_fail (error : Error) : (Doc.fail error).Meets P ↔ P (.never error) :=
  List.forall_mem_singleton

@[simp]
theorem meets_param (p : Param) (inline : Doc) : (Doc.param p inline).Meets P ↔ inline.Meets P := Iff.rfl

@[simp]
theorem meets_parens (body : Doc) : (Doc.parens body).Meets P ↔ body.Meets P := by
  simp [Doc.parens]

@[simp]
theorem meets_when (condition : Bool) (body : Doc) :
    (Doc.when condition body).Meets P ↔ (condition = true → body.Meets P) := by
  cases condition <;> simp [Doc.when]

@[simp]
theorem meets_clause (keyword : String) : (Doc.clause keyword).Meets P := by
  simp [Doc.clause]

@[simp]
theorem meets_ofOption {α : Type} (value : Option α) (body : α → Doc) :
    (Doc.ofOption value body).Meets P ↔ ∀ a ∈ value, (body a).Meets P := by
  cases value <;> simp [Doc.ofOption]

@[simp]
theorem meets_concat {α : Type} (items : List α) (body : α → Doc) :
    (Doc.concat (items.map body)).Meets P ↔ ∀ a ∈ items, (body a).Meets P := by
  induction items with
  | nil => simp [Doc.concat]
  | cons a rest ih =>
    rw [List.forall_mem_cons, ← ih]
    exact meets_append _ _

theorem meets_separated {separator : Doc} (free : separator.Meets P) (docs : List Doc) :
    (Doc.separated separator docs).Meets P ↔ ∀ d ∈ docs, d.Meets P := by
  induction docs with
  | nil => simp [Doc.separated]
  | cons d rest ih =>
    cases rest with
    | nil => simp [Doc.separated]
    | cons e rest =>
      rw [List.forall_mem_cons, ← ih]
      simp [Doc.separated, free]

@[simp]
theorem meets_commas (docs : List Doc) : (Doc.commas docs).Meets P ↔ ∀ d ∈ docs, d.Meets P :=
  meets_separated (meets_text _) docs

end Doc

namespace Style

variable (style : Style)

@[simp] theorem meets_identDoc (i : Identifier) : (style.identDoc i).Meets P := Doc.meets_text _

@[simp] theorem meets_nameDoc (n : QualifiedName) : (style.nameDoc n).Meets P := Doc.meets_text _

@[simp]
theorem meets_identsDoc (is : List Identifier) : (style.identsDoc is).Meets P := by
  simp [Style.identsDoc]

@[simp]
theorem meets_literalDoc (value : Literal) :
    (style.literalDoc value).Meets P ↔ ∀ c ∈ value.construct?, P (.construct c) := by
  simp [Style.literalDoc]

@[simp]
theorem meets_columnDoc (c : ColumnRef) : (style.columnDoc c).Meets P := by
  simp [Style.columnDoc]

@[simp]
theorem meets_operatorDoc (op : CustomOperator) :
    (style.operatorDoc op).Meets P ↔ P (.construct .customOperator) := by
  unfold Style.operatorDoc
  cases op.schema <;> simp

end Style

namespace Render

variable (style : Style)

@[simp]
theorem meets_list {k : Kind} (parts : List (Drawn k)) :
    (Render.list parts).Meets P ↔ ∀ part ∈ parts, part.value.Meets P := by
  simp [Render.list]

@[simp]
theorem meets_operand (wrap : Nat → Bool) (e : Drawn .expr) :
    (Render.operand wrap e).Meets P ↔ e.value.Meets P := by
  unfold Render.operand
  split
  · split <;> simp
  · rfl

@[simp]
theorem meets_tight (e : Drawn .expr) : (Render.tight e).Meets P ↔ e.value.Meets P :=
  meets_operand _ e

@[simp]
theorem meets_side (e : Drawn .expr) : (Render.side e).Meets P ↔ e.value.Meets P :=
  meets_operand _ e

@[simp]
theorem meets_negate (e : Drawn .expr) : (Render.negate e).Meets P ↔ e.value.Meets P := by
  unfold Render.negate
  split <;> simp

@[simp]
theorem meets_negation (p : Drawn .predicate) : (Render.negation p).Meets P ↔ p.value.Meets P := by
  unfold Render.negation
  split <;> simp

@[simp]
theorem meets_joined (op : LogicalOp) (p : Drawn .predicate) :
    (Render.joined op p).Meets P ↔ p.value.Meets P := by
  unfold Render.joined
  split <;> simp

@[simp]
theorem meets_tableAlias (correlation : Option TableAlias) : (Render.tableAlias style correlation).Meets P := by
  simp [Render.tableAlias]

@[simp]
theorem meets_namedTable (t : NamedTable) :
    (Render.namedTable style t).Meets P ↔ ∀ c ∈ t.inheritance.construct?, P (.construct c) := by
  unfold Render.namedTable
  cases t.inheritance <;> simp [Inheritance.construct?]

@[simp]
theorem meets_typeName (base : TypeBase) (dims : UInt32) (zone : TimeZoneSpec)
    (modifiers : List (Drawn .expr)) :
    (Render.typeName style base dims zone modifiers).Meets P ↔
      (∀ c ∈ zone.construct?, P (.construct c)) ∧ (dims ≠ 0 → P (.construct .arrayType)) ∧
        ∀ e ∈ modifiers, e.value.Meets P := by
  unfold Render.typeName
  cases base <;> cases zone <;> cases modifiers <;> simp [TimeZoneSpec.construct?] <;> tauto

@[simp]
theorem meets_pagination (window : Option LimitOffset) (ordered : Bool) :
    (Render.pagination style window ordered).Meets P := by
  unfold Render.pagination
  split
  · simp
  · split
    · simp
    · split <;> simp

@[simp]
theorem meets_top (window : Option LimitOffset) :
    (Render.top style window).Meets P ↔ ∀ e ∈ style.topFailures window, P (.never e) := by
  unfold Render.top Style.topFailures
  cases style.pagination <;> rcases window with _ | ⟨_ | _, _ | _⟩ <;> simp

@[simp]
theorem meets_compositeTop (window : Option LimitOffset) :
    (Render.compositeTop style window).Meets P ↔ ∀ e ∈ style.compositeFailures window, P (.never e) := by
  unfold Render.compositeTop Style.compositeFailures
  cases style.pagination <;> rcases window with _ | ⟨_ | _, _ | _⟩ <;> simp

@[simp]
theorem meets_term (q : Drawn .query) : (Render.term q).Meets P ↔ q.value.Meets P := by
  unfold Render.term
  split <;> simp

/-- Terms are written as long as there are operators before them. -/
theorem meets_terms {ops : List SetOperator} {queries : List (Drawn .query)}
    (paired : ops.length = queries.length) :
    (Render.terms ops queries).Meets P ↔ ∀ q ∈ queries, q.value.Meets P := by
  induction ops generalizing queries with
  | nil =>
    cases queries with
    | nil => simp [Render.terms]
    | cons => cases paired
  | cons op ops ih =>
    cases queries with
    | nil => cases paired
    | cons q rest => simp [Render.terms, ih (Nat.succ.inj paired)]

theorem meets_composite {ops : List SetOperator} {queries : List (Drawn .query)} (many : queries ≠ [])
    (paired : ops.length = queries.length - 1) (order : Option (Drawn .orderBy))
    (window : Option (Drawn .limitOffset)) :
    (Render.composite style ops queries order window).Meets P ↔
      (∀ e ∈ style.compositeFailures (window.map (·.tree.window)), P (.never e)) ∧
        (∀ q ∈ queries, q.value.Meets P) ∧ ∀ o ∈ order, o.value.Meets P := by
  cases queries with
  | nil => exact absurd rfl many
  | cons first rest =>
    have paired' : ops.length = rest.length := paired
    simp [Render.composite, meets_terms paired', and_assoc]

@[simp]
theorem meets_materialization (m : Materialization) :
    (Render.materialization m).Meets P ↔ ∀ c ∈ m.construct?, P (.construct c) := by
  cases m <;> simp [Render.materialization, Materialization.construct?]

@[simp]
theorem meets_orderItem (dir : Option Direction) (nulls : Option Nulls) (e : Drawn .expr) :
    (Render.orderItem style dir nulls e).Meets P ↔ e.value.Meets P := by
  have direction : ∀ d, (Render.direction d).Meets P := fun d => by cases d <;> exact Doc.meets_text _
  unfold Render.orderItem
  cases style.nulls.emulated dir nulls <;> simp [Render.nullsKey, direction]

@[simp]
theorem meets_locking (l : Locking) :
    (Render.locking style l).Meets P ↔ (∀ c ∈ l.mode.construct?, P (.construct c)) ∧
      (l.nowait = true → P (.construct .nowait)) ∧ (l.skipLocked = true → P (.construct .skipLocked)) := by
  unfold Render.locking
  cases l.mode <;> simp [Render.lockMode, LockMode.construct?, and_assoc]

@[simp]
theorem meets_frameUnit (unit : FrameUnit) :
    (Render.frameUnit unit).Meets P ↔ ∀ c ∈ unit.construct?, P (.construct c) := by
  cases unit <;> simp [Render.frameUnit, FrameUnit.construct?]

theorem meets_windowSpec (exclude : Option FrameExclusion) (partition : Option (Drawn .partitionBy))
    (order : Option (Drawn .orderBy)) (frame : Option (Drawn .frame)) :
    (Render.windowSpec exclude partition order frame).Meets P ↔
      (exclude.isSome = true → P (.construct .exclude)) ∧ (∀ p ∈ partition, p.value.Meets P) ∧
        (∀ o ∈ order, o.value.Meets P) ∧ ∀ f ∈ frame, f.value.Meets P := by
  simp only [Render.windowSpec, Doc.meets_append, Doc.meets_separated (Doc.meets_text _)]
  cases exclude <;> cases partition <;> cases order <;> cases frame <;> simp <;> tauto

theorem meets_call (name : QualifiedName) (distinct : Bool) (arguments tail : Doc) :
    (Render.call style name distinct arguments tail).Meets P ↔ arguments.Meets P ∧ tail.Meets P := by
  simp [Render.call]

theorem meets_callTail (groups : Option (Drawn .orderBy)) (filter : Option (Drawn .predicate))
    (window : Option (Drawn .overClause)) :
    (Render.callTail groups filter window).Meets P ↔
      (∀ c ∈ Form.callConstructs groups filter, P (.construct c)) ∧ (∀ o ∈ groups, o.value.Meets P) ∧
        (∀ p ∈ filter, p.value.Meets P) ∧ ∀ o ∈ window, o.value.Meets P := by
  cases groups <;> cases filter <;> simp [Render.callTail, Form.callConstructs] <;> tauto

theorem meets_case (subject : Option (Drawn .expr)) (arms : List (Drawn .expr × Drawn .expr))
    (otherwise : Option (Drawn .expr)) :
    (Render.case subject arms otherwise).Meets P ↔
      (∀ e ∈ subject, e.value.Meets P) ∧ (∀ arm ∈ arms, arm.1.value.Meets P ∧ arm.2.value.Meets P) ∧
        ∀ e ∈ otherwise, e.value.Meets P := by
  simp [Render.case, and_assoc]

theorem meets_arithmetic (op : ArithmeticOp) (lhs rhs : Drawn .expr) :
    (Render.arithmetic style op lhs rhs).Meets P ↔
      (∀ c ∈ op.construct?, P (.construct c)) ∧ lhs.value.Meets P ∧ rhs.value.Meets P := by
  cases op <;> simp [Render.arithmetic, ArithmeticOp.construct?, and_assoc]

theorem meets_select (s : SelectParts Drawn) :
    (Render.select style s).Meets P ↔
      (∀ e ∈ style.selectFailures (s.limitOffset.map (·.tree.window)) s.items.isEmpty, P (.never e)) ∧
        Fill.All (fun part => part.Meets P) Form.select.slots s.toFill := by
  have empty : (∀ e ∈ if s.items.isEmpty then [Error.invalid .emptySelect] else [], P (.never e)) ↔
      (s.items.isEmpty = true → P (.never (.invalid .emptySelect))) := by
    cases s.items.isEmpty <;> simp
  have windows : (s.windows ≠ [] → ∀ part ∈ s.windows, part.value.Meets P) ↔
      ∀ part ∈ s.windows, part.value.Meets P :=
    ⟨fun all part member => all (List.ne_nil_of_mem member) part member, fun all _ => all⟩
  simp only [Render.select, Doc.meets_append, Doc.meets_text, Doc.meets_ofOption, Doc.meets_gap,
    Doc.meets_clause, Doc.meets_when, Doc.meets_fail, Doc.meets_concat, meets_list, meets_top,
    meets_pagination, Bool.not_eq_true', List.isEmpty_eq_false_iff, true_and, and_true, windows,
    Style.selectFailures, List.forall_mem_append, empty, Fill.All, SelectParts.toFill, Drawn.Meets]
  tauto

end Render

namespace Render

/-- The demands of a node's standard document are its own and those of the documents below. A node that
fails by itself need not get as far as the constructs it is written with. -/
def DemandsSplit (P : Demand → Prop) (style : Style) {k : Kind} (form : Form k)
    (parts : Fill Drawn form.slots) : Prop :=
  let failures := form.failures style (Fill.map (fun part => part.tree) form.slots parts)
  (Render.standard style form parts).Meets P ↔
    (∀ e ∈ failures, P (.never e)) ∧ (failures = [] → ∀ c ∈ form.constructs parts, P (.construct c)) ∧
      Fill.All (fun part => part.Meets P) form.slots parts

namespace DemandsSplit

variable {style : Style} {k : Kind} {form : Form k} {parts : Fill Drawn form.slots}

/-- A form that never fails, and the constructs that it needs. -/
theorem unfailing (needed : List Construct)
    (whole : form.failures style (Fill.map (fun part => part.tree) form.slots parts) = [])
    (needs : form.constructs parts = needed)
    (split : (Render.standard style form parts).Meets P ↔
      (∀ c ∈ needed, P (.construct c)) ∧ Fill.All (fun part => part.Meets P) form.slots parts) :
    DemandsSplit P style form parts := by
  unfold DemandsSplit
  rw [whole, needs, split]
  exact ⟨fun both => ⟨nofun, fun _ => both.1, both.2⟩, fun all => ⟨all.2.1 rfl, all.2.2⟩⟩

/-- A form that needs no construct. -/
theorem unneedy (free : form.constructs parts = [])
    (split : (Render.standard style form parts).Meets P ↔
      (∀ e ∈ form.failures style (Fill.map (fun part => part.tree) form.slots parts), P (.never e)) ∧
        Fill.All (fun part => part.Meets P) form.slots parts) : DemandsSplit P style form parts := by
  unfold DemandsSplit
  rw [free, split]
  exact and_congr_right fun _ => ⟨fun below => ⟨fun _ => nofun, below⟩, fun both => both.2⟩

/-- A form that never fails and needs no construct. -/
theorem plain (whole : form.failures style (Fill.map (fun part => part.tree) form.slots parts) = [])
    (free : form.constructs parts = [])
    (split : (Render.standard style form parts).Meets P ↔
      Fill.All (fun part => part.Meets P) form.slots parts) : DemandsSplit P style form parts := by
  refine unfailing [] whole free ?_
  rw [split]
  exact ⟨fun below => ⟨nofun, below⟩, fun both => both.2⟩

end DemandsSplit

theorem meets_standard {style : Style} (standard : style.StandardRenderers) {k : Kind} (form : Form k)
    (parts : Fill Drawn form.slots) (checked : form.check parts = .ok ()) :
    DemandsSplit P style form parts := by
  cases form with
  | expr variant | predicate variant | tableRef variant | join variant | query variant =>
    cases variant <;> exact .plain rfl rfl ⟨fun met => ⟨met, trivial⟩, fun both => both.1⟩
  | valueSet variant =>
    cases variant <;> exact .plain rfl rfl (by simp [Render.standard, Fill.All, Drawn.Meets])
  | literal value =>
    refine .unfailing value.construct?.toList rfl rfl ?_
    simp [Render.standard, Fill.All]
  | param p =>
    refine .unfailing (p.value.bind Literal.construct?).toList rfl rfl ?_
    obtain ⟨kind, _ | value⟩ := p
    · simp [Render.standard, Style.paramDoc, Fill.All]
    · have inline := standard (.literal value) (style.literalDoc value)
      simp [Render.standard, Style.paramDoc, inline, Fill.All]
  | call =>
    refine .unfailing (Form.callConstructs parts.2.1 parts.2.2.1) rfl rfl ?_
    simp only [Render.standard, Render.meets_call, Render.meets_callTail, Render.meets_list, Fill.All,
      Drawn.Meets, and_true]
    exact and_left_comm
  | callStar =>
    refine .unfailing (Form.callConstructs parts.1 parts.2.1) rfl rfl ?_
    simp [Render.standard, Render.meets_call, Render.meets_callTail, Fill.All, Drawn.Meets]
  | case => exact .plain rfl rfl (by simp [Render.standard, Render.meets_case, Fill.All, Drawn.Meets])
  | arithmetic op =>
    refine .unfailing op.construct?.toList rfl rfl ?_
    simp [Render.standard, Render.meets_arithmetic, Fill.All, Drawn.Meets]
  | customBinary op =>
    refine .unfailing [.customOperator] rfl rfl ?_
    simp [Render.standard, Render.customBinary, Fill.All, Drawn.Meets, and_assoc, and_left_comm]
  | customUnary op =>
    refine .unfailing [.customOperator] rfl rfl ?_
    simp [Render.standard, Render.customUnary, Fill.All, Drawn.Meets]
  | typeName base dims zone =>
    refine .unfailing (zone.construct?.toList ++ Construct.present [(dims ≠ 0, .arrayType)]) rfl rfl ?_
    simp [Render.standard, Fill.All, Drawn.Meets, or_imp, forall_and, and_assoc]
  | array =>
    refine .unfailing [.arrayLiteral] rfl rfl ?_
    simp [Render.standard, Fill.All, Drawn.Meets]
  | atTimeZone =>
    refine .unfailing [.atTimeZone] rfl rfl ?_
    simp [Render.standard, Render.atTimeZone, Fill.All, Drawn.Meets, and_assoc]
  | between symmetric =>
    refine .unfailing (Construct.present [(symmetric, .symmetricBetween)]) rfl rfl ?_
    simp [Render.standard, Render.between, Fill.All, Drawn.Meets, and_assoc, and_left_comm]
  | isDistinctFrom =>
    refine .unfailing [.isDistinctFrom] rfl rfl ?_
    simp [Render.standard, Render.isDistinctFrom, Fill.All, Drawn.Meets, and_assoc]
  | namedTable t =>
    refine .unfailing t.inheritance.construct?.toList rfl rfl ?_
    simp [Render.standard, Fill.All]
  | lateralTable =>
    refine .unfailing [.lateral] rfl rfl ?_
    simp [Render.standard, Fill.All, Drawn.Meets]
  | distinctOn =>
    refine .unfailing [.distinctOn] rfl rfl ?_
    simp [Render.standard, Fill.All, Drawn.Meets]
  | locking l =>
    refine .unfailing (l.mode.construct?.toList ++
      Construct.present [(l.nowait, .nowait), (l.skipLocked, .skipLocked)]) rfl rfl ?_
    simp [Render.standard, Fill.All, or_imp, forall_and]
  | windowSpec exclude =>
    refine .unfailing (Construct.present [(exclude.isSome, .exclude)]) rfl rfl ?_
    simp [Render.standard, Render.meets_windowSpec, Fill.All, Drawn.Meets]
  | frameFrom unit | frameBetween unit =>
    refine .unfailing unit.construct?.toList rfl rfl ?_
    simp [Render.standard, Render.frameBetween, Fill.All, Drawn.Meets, and_assoc]
  | comparison | like | isNull | membership | existence | quantified | connective =>
    exact .plain rfl rfl (by simp [Render.standard, Render.comparison, Render.like, Render.isNull,
      Render.membership, Render.existence, Render.quantified, Render.connective, Fill.All, Drawn.Meets,
      and_assoc])
  | collate | usingJoin | onJoin | withQuery =>
    exact .plain rfl rfl (by simp [Render.standard, Render.collate, Render.usingJoin, Render.onJoin,
      Render.withQuery, Fill.All, Drawn.Meets])
  | select =>
    refine .unneedy rfl ?_
    change _ ↔ (∀ e ∈ style.selectFailures (((SelectParts.ofFill parts).limitOffset.map (·.tree)).map (·.window))
      ((SelectParts.ofFill parts).items.map (·.tree)).isEmpty, P (.never e)) ∧ _
    rw [Option.map_map, List.isEmpty_map]
    exact Render.meets_select style (.ofFill parts)
  | composite ops =>
    obtain ⟨many, paired⟩ := Form.composite_paired checked
    have filled : parts.1 ≠ [] := by
      intro none
      rw [none] at many
      cases many
    refine .unneedy rfl ?_
    change _ ↔ (∀ e ∈ style.compositeFailures ((parts.2.2.1.map (·.tree)).map (·.window)), P (.never e)) ∧ _
    rw [Option.map_map]
    simp only [Fill.All, Drawn.Meets, Option.mem_def, implies_true, and_true]
    exact Render.meets_composite style filled paired parts.2.1 parts.2.2.1
  | cte name columns m =>
    obtain ⟨_ | body, _⟩ := parts
    -- without a body the node fails before its materialization is written
    · refine (Doc.meets_fail (.invalid (.noBody name.value))).trans ⟨fun met => ?_, fun all => ?_⟩
      · have below : ∀ q ∈ (none : Option (Drawn .query)), q.Meets P := nofun
        exact ⟨List.forall_mem_singleton.mpr met, (fun empty => nomatch empty), below, trivial⟩
      · exact all.1 _ (List.mem_singleton_self _)
    · refine .unfailing m.construct?.toList rfl rfl ?_
      simp [Render.standard, Render.cte, Fill.All, Drawn.Meets]
  | _ => exact .plain rfl rfl (by simp [Render.standard, Fill.All, Drawn.Meets])

end Render

end SqlTree

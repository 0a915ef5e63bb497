import Mathlib.Logic.Relation
import SqlTree.Build.Select
import SqlTree.Build.Source
import SqlTree.Proofs.DecodedValid

namespace SqlTree

theorem Tree.make_gives {k : Kind} {form : Form k} {contents : Fill Tree form.slots} (attributes : form.Valid)
    (below : Fill.All (fun t => t.Valid) form.slots contents) : Gives Tree.Valid (Tree.make form contents) :=
  .checked fun passed => Tree.ofContents_valid form contents attributes passed below

theorem QualifiedName.ofDotted_gives (text : String) :
    Gives QualifiedName.Valid (QualifiedName.ofDotted text) :=
  (Gives.mapM (fun _ => Identifier.styled_gives _ _) _).bind fun _ parts => QualifiedName.make_gives parts.1

theorem Param.named_gives (name : String) : Gives Param.Valid (Param.named name) := by
  unfold Param.named
  split
  · rename_i word
    exact .ok ⟨if_pos word, nofun⟩
  · exact .error _

theorem Param.ordinal_gives (index : UInt32) : Gives Param.Valid (Param.ordinal index) := by
  unfold Param.ordinal
  split
  · exact .error _
  · rename_i positive
    exact .ok ⟨if_neg positive, nofun⟩

theorem Expr.ofColumn_gives (name : String) : Gives Tree.Valid (Expr.ofColumn name) :=
  (Identifier.styled_gives name .none).bind fun _ valid => .ok (Expr.column_valid.mpr ⟨nofun, valid⟩)

theorem Expr.ofColumnOf_gives (qualifier name : String) : Gives Tree.Valid (Expr.ofColumnOf qualifier name) := by
  refine (Identifier.styled_gives qualifier .none).bind fun _ outer =>
    (Identifier.styled_gives name .none).bind fun _ inner => .ok (Expr.column_valid.mpr ⟨fun q member => ?_, inner⟩)
  cases member
  exact outer

theorem Expr.ofParamName_gives (name : String) : Gives Tree.Valid (Expr.ofParamName name) :=
  (Param.named_gives name).bind fun _ valid => .ok (Expr.param_valid.mpr valid)

theorem NamedTable.ofDotted_gives (text : String) :
    Gives (fun t => (TableRef.ofTable t).Valid) (NamedTable.ofDotted text) := by
  have reference : ∀ {t : NamedTable}, (Form.namedTable t).Valid → (TableRef.ofTable t).Valid :=
    fun {t} valid => TableRef.of_valid.mpr (((Form.namedTable t).passed_valid rfl).mpr ⟨valid, trivial⟩)
  refine (QualifiedName.ofDotted_gives text).bind fun dotted ⟨_, valid⟩ => ?_
  split
  · rename_i name same
    rw [same] at valid
    exact .ok (reference ⟨nofun, valid name (by simp), nofun⟩)
  · rename_i schema name same
    rw [same] at valid
    refine .ok (reference ⟨fun s member => ?_, valid name (by simp), nofun⟩)
    cases member
    exact valid schema (by simp)
  · exact .error _

theorem Call.make_gives (name : String) {args : List Expr} (valid : ∀ a ∈ args, a.Valid) :
    Gives (fun c => c.toTree.Valid) (Call.make name args) := by
  refine (QualifiedName.ofDotted_gives name).bind fun dotted named => .ok ?_
  exact Tree.ofContents_valid (.call dotted false) (args, none, none, none, ()) named rfl
    ⟨valid, nofun, nofun, nofun, trivial⟩

theorem Literal.ofInterval_gives (text : String) : Gives Literal.Valid (Literal.ofInterval text) := by
  unfold Literal.ofInterval
  split
  · exact .error _
  · exact .ok rfl

theorem Literal.ofDollar_gives (tag : Option String) (body : String) :
    Gives Literal.Valid (Literal.ofDollar tag body) :=
  .map (DollarString.make_gives tag body)

theorem Literal.ofDouble_gives (x : Double) : Gives Literal.Valid (Literal.ofDouble x) := by
  unfold Literal.ofDouble
  split
  · exact .ok rfl
  · exact .error _

theorem TypeName.make_gives {base : TypeBase} (named : ∀ name, base = .named name → name.Valid)
    {modifiers : List Expr} (valid : ∀ e ∈ modifiers, e.Valid) (dims : UInt32) (zone : TimeZoneSpec) :
    Gives Tree.Valid (TypeName.make base modifiers dims zone) :=
  Tree.make_gives (Form.typeName_valid named dims zone) ⟨valid, trivial⟩

theorem Join.usingColumns_gives (kind : JoinKind) {t : TableRef} (table : t.Valid)
    {columns : List Identifier} (valid : ∀ c ∈ columns, c.Valid) :
    Gives Tree.Valid (Join.usingColumns kind t columns) := by
  have made : Gives Tree.Valid (Tree.make (.usingJoin kind columns) (t, ())) :=
    Tree.make_gives valid ⟨table, trivial⟩
  exact made.bind fun _ own => .ok (Join.of_valid.mpr own)

theorem Query.composite_gives {terms : List Query} (valid : ∀ q ∈ terms, q.Valid) (ops : List SetOperator) :
    Gives Tree.Valid (Query.composite terms ops) := by
  have made : Gives Tree.Valid (Tree.make (.composite ops) (terms, none, none, ())) :=
    Tree.make_gives trivial ⟨valid, nofun, nofun, trivial⟩
  exact made.bind fun _ own => .ok (Query.of_valid.mpr own)

theorem Query.withCtes_gives {ctes : List (Tree .cte)} (valid : ∀ c ∈ ctes, c.Valid) {body : Query}
    (own : body.Valid) (recursive : Bool) : Gives Tree.Valid (Query.withCtes ctes body recursive) := by
  have made : Gives Tree.Valid (Tree.make (.withQuery recursive) (ctes, body, ())) :=
    Tree.make_gives trivial ⟨valid, own, trivial⟩
  exact made.bind fun _ own => .ok (Query.of_valid.mpr own)

/-- What is built with a check is valid, if what it is built from is. -/
structure CheckedConstructors : Prop where
  identifier : ∀ value style, Gives Identifier.Valid (Identifier.styled value style)
  qualifiedName : ∀ parts, (∀ i ∈ parts, i.Valid) → Gives QualifiedName.Valid (QualifiedName.make parts)
  dottedName : ∀ text, Gives QualifiedName.Valid (QualifiedName.ofDotted text)
  customOperator : ∀ schema symbol, (∀ s ∈ schema, s.Valid) →
    Gives CustomOperator.Valid (CustomOperator.make schema symbol)
  interval : ∀ text, Gives Literal.Valid (Literal.ofInterval text)
  bits : ∀ bits, Gives Literal.Valid (Literal.ofBits bits)
  hexDigits : ∀ digits, Gives Literal.Valid (Literal.ofHexDigits digits)
  dollar : ∀ tag body, Gives Literal.Valid (Literal.ofDollar tag body)
  double : ∀ x, Gives Literal.Valid (Literal.ofDouble x)
  namedParam : ∀ name, Gives Param.Valid (Param.named name)
  ordinalParam : ∀ index, Gives Param.Valid (Param.ordinal index)
  locking : ∀ mode tables nowait skipLocked, (∀ t ∈ tables, t.Valid) →
    Gives (fun l => (Tree.locking l).Valid) (Locking.make mode tables nowait skipLocked)
  column : ∀ name, Gives Tree.Valid (Expr.ofColumn name)
  columnOf : ∀ qualifier name, Gives Tree.Valid (Expr.ofColumnOf qualifier name)
  paramName : ∀ name, Gives Tree.Valid (Expr.ofParamName name)
  table : ∀ text, Gives (fun t => (TableRef.ofTable t).Valid) (NamedTable.ofDotted text)
  call : ∀ name args, (∀ a ∈ args, a.Valid) → Gives (fun c => c.toTree.Valid) (Call.make name args)
  typeName : ∀ base modifiers dims zone, (∀ name, base = .named name → name.Valid) →
    (∀ e ∈ modifiers, e.Valid) → Gives Tree.Valid (TypeName.make base modifiers dims zone)
  rowList : ∀ rows, (∀ r ∈ rows, r.Valid) → Gives Tree.Valid (RowList.make rows)
  case : ∀ subject arms otherwise, (∀ e ∈ subject, e.Valid) →
    (∀ arm ∈ arms, arm.1.Valid ∧ arm.2.Valid) → (∀ e ∈ otherwise, e.Valid) →
    Gives Tree.Valid (Case.make subject arms otherwise)
  usingJoin : ∀ kind t columns, t.Valid → (∀ c ∈ columns, c.Valid) →
    Gives Tree.Valid (Join.usingColumns kind t columns)
  composite : ∀ terms ops, (∀ q ∈ terms, q.Valid) → Gives Tree.Valid (Query.composite terms ops)
  withCtes : ∀ ctes body recursive, (∀ c ∈ ctes, c.Valid) → body.Valid →
    Gives Tree.Valid (Query.withCtes ctes body recursive)

theorem checkedConstructors : CheckedConstructors where
  identifier := Identifier.styled_gives
  qualifiedName _ := QualifiedName.make_gives
  dottedName := QualifiedName.ofDotted_gives
  customOperator _ symbol valid := CustomOperator.make_gives valid symbol
  interval := Literal.ofInterval_gives
  bits := Literal.ofBits_gives
  hexDigits := Literal.ofHexDigits_gives
  dollar := Literal.ofDollar_gives
  double := Literal.ofDouble_gives
  namedParam := Param.named_gives
  ordinalParam := Param.ordinal_gives
  locking mode _ nowait skipLocked valid :=
    (Locking.make_gives mode valid nowait skipLocked).mono fun _ own => And.intro own ⟨rfl, trivial⟩
  column := Expr.ofColumn_gives
  columnOf := Expr.ofColumnOf_gives
  paramName := Expr.ofParamName_gives
  table := NamedTable.ofDotted_gives
  call name _ := Call.make_gives name
  typeName _ _ dims zone named valid := TypeName.make_gives named valid dims zone
  rowList _ valid := Tree.make_gives trivial ⟨valid, trivial⟩
  case _ _ _ subject arms otherwise := Tree.make_gives trivial ⟨subject, arms, otherwise, trivial⟩
  usingJoin kind _ _ table columns := Join.usingColumns_gives kind table columns
  composite _ ops terms := Query.composite_gives terms ops
  withCtes _ _ recursive ctes body := Query.withCtes_gives ctes body recursive

section Composing

/-- Two terms at least, an operator between any two neighbours, and valid parts. -/
structure Composite.Valid (c : Composite) : Prop where
  several : 2 ≤ c.terms.length
  paired : c.ops.length + 1 = c.terms.length
  terms : ∀ q ∈ c.terms, q.Valid
  orderBy : ∀ o ∈ c.orderBy, o.Valid
  limitOffset : ∀ l ∈ c.limitOffset, l.Valid

theorem Composite.ofTree_valid {t : Tree .composite} : (Composite.ofTree t).Valid ↔ t.Valid := by
  match t with
  | .node (.composite ops) below =>
    have parts := below.valid_iff
    constructor
    · intro valid
      have several : 2 ≤ below.contents.1.length := valid.several
      have paired : ops.length + 1 = below.contents.1.length := valid.paired
      have passed : (Form.composite ops).check below.contents = .ok () :=
        Form.composite_check_ok several (by omega)
      have validBelow := parts.mpr ⟨valid.terms, valid.orderBy, valid.limitOffset, trivial⟩
      exact And.intro trivial ⟨passed, validBelow⟩
    · intro valid
      obtain ⟨several, paired⟩ := Form.composite_paired valid.2.1
      obtain ⟨terms, orderBy, limitOffset, _⟩ := parts.mp valid.2.2
      have counted : ops.length + 1 = below.contents.1.length := by omega
      exact ⟨several, counted, terms, orderBy, limitOffset⟩

theorem Composite.ofTree_toTree (c : Composite) : Composite.ofTree c.toTree = c := by
  simp [Composite.toTree, Composite.ofTree]

theorem Query.ofComposite_valid {c : Composite} : (Query.ofComposite c).Valid ↔ c.Valid := by
  rw [Query.ofComposite, Query.of_valid, ← Composite.ofTree_valid, Composite.ofTree_toTree]

/-- The set operation that a valid query is has valid parts. -/
theorem Query.composite_valid {q : Query} (valid : q.Valid) {c : Composite}
    (same : q.composite? = some c) : c.Valid := by
  match q with
  | .of .composite t =>
    cases same
    exact Composite.ofTree_valid.mpr (Query.of_valid.mp valid)
  | .of .select _ => cases same
  | .of .withQuery _ => cases same

theorem Composite.pair_valid {lhs rhs : Query} (first : lhs.Valid) (second : rhs.Valid) (op : SetOperator) :
    (Composite.pair op lhs rhs).Valid where
  several := le_refl 2
  paired := rfl
  terms := by
    intro q member
    rcases List.mem_pair.mp member with rfl | rfl
    · exact first
    · exact second
  orderBy := nofun
  limitOffset := nofun

/-- A term and an operator come together. -/
theorem Composite.Valid.append {c : Composite} (valid : c.Valid) {q : Query} (own : q.Valid)
    (op : SetOperator) : (c.append op q).Valid where
  several := by
    have several := valid.several
    have longer : (c.append op q).terms.length = c.terms.length + 1 := List.length_append
    omega
  paired := by
    have paired := valid.paired
    have terms : (c.append op q).terms.length = c.terms.length + 1 := List.length_append
    have ops : (c.append op q).ops.length = c.ops.length + 1 := List.length_append
    omega
  terms := List.forall_mem_append.mpr ⟨valid.terms, List.forall_mem_singleton.mpr own⟩
  orderBy := valid.orderBy
  limitOffset := valid.limitOffset

/-- Composing checks nothing and keeps queries valid. -/
theorem Query.compose_valid {lhs rhs : Query} (first : lhs.Valid) (second : rhs.Valid) (op : SetOperator) :
    (Query.compose lhs op rhs).Valid := by
  have nested : (Query.ofComposite (.pair op lhs rhs)).Valid :=
    Query.ofComposite_valid.mpr (Composite.pair_valid first second op)
  unfold Query.compose
  split
  · rename_i c same
    have extended : (Query.ofComposite (c.append op rhs)).Valid :=
      Query.ofComposite_valid.mpr ((Query.composite_valid first same).append second op)
    split
    · exact extended
    · exact nested
  · exact nested

end Composing

namespace SelectDraft

/-- What has been given so far is valid. -/
structure Valid (d : SelectDraft) : Prop where
  distinct : ∀ t ∈ d.distinct, t.Valid
  items : ∀ t ∈ d.items, t.Valid
  source : ∀ t ∈ d.source, t.Valid
  joins : ∀ t ∈ d.joins, t.Valid
  filter : ∀ t ∈ d.filter, t.Valid
  groupBy : ∀ t ∈ d.groupBy, t.Valid
  having : ∀ t ∈ d.having, t.Valid
  windows : ∀ t ∈ d.windows, t.Valid
  orderBy : ∀ items ∈ d.orderBy, ∀ t ∈ items, t.Valid
  locking : ∀ l ∈ d.locking, l.Valid

/-- A clause is set or extended with something valid. -/
inductive Step : SelectDraft → SelectDraft → Prop
  | distinct (d : SelectDraft) : Step d d.setDistinct
  | distinctOn (d : SelectDraft) {on : List Expr} (valid : ∀ e ∈ on, e.Valid) : Step d (d.setDistinctOn on)
  | item (d : SelectDraft) {item : SelectItem} (valid : item.Valid) : Step d (d.addItem item)
  | items (d : SelectDraft) {items : List SelectItem} (valid : ∀ i ∈ items, i.Valid) :
      Step d (d.addItems items)
  | source (d : SelectDraft) {t : TableRef} (valid : t.Valid) : Step d (d.setSource t)
  | join (d : SelectDraft) {j : Join} (valid : j.Valid) : Step d (d.addJoin j)
  | filter (d : SelectDraft) {p : Predicate} (valid : p.Valid) : Step d (d.addFilter p)
  | groupBy (d : SelectDraft) {items : List Expr} (valid : ∀ e ∈ items, e.Valid) : Step d (d.setGroupBy items)
  | having (d : SelectDraft) {p : Predicate} (valid : p.Valid) : Step d (d.addHaving p)
  | window (d : SelectDraft) {w : Tree .windowDef} (valid : w.Valid) : Step d (d.addWindow w)
  | order (d : SelectDraft) {item : Tree .orderItem} (valid : item.Valid) : Step d (d.addOrder item)
  | limit (d : SelectDraft) (n : UInt64) : Step d (d.setLimit n)
  | offset (d : SelectDraft) (n : UInt64) : Step d (d.setOffset n)
  | locking (d : SelectDraft) {l : Locking} (valid : l.Valid) : Step d (d.setLocking l)

theorem empty_valid : SelectDraft.empty.Valid :=
  ⟨nofun, nofun, nofun, nofun, nofun, nofun, nofun, nofun, nofun, nofun⟩

theorem both_valid {known : Option Predicate} (old : ∀ q ∈ known, q.Valid) {p : Predicate} (new : p.Valid) :
    (both known p).Valid := by
  cases known with
  | none => exact new
  | some q => exact Predicate.connective_valid.mpr ⟨old q rfl, new⟩

theorem Step.valid {d e : SelectDraft} (step : Step d e) (valid : d.Valid) : e.Valid := by
  have one : ∀ {k : Kind} {new : Tree k}, new.Valid → ∀ t ∈ some new, t.Valid := by
    rintro k new own t ⟨⟩
    exact own
  have further : ∀ {k : Kind} {old new : List (Tree k)}, (∀ t ∈ old, t.Valid) → (∀ t ∈ new, t.Valid) →
      ∀ t ∈ old ++ new, t.Valid := fun old new => List.forall_mem_append.mpr ⟨old, new⟩
  cases step with
  | distinct =>
    have own : (Tree.node .distinct .nil).Valid := And.intro trivial ⟨rfl, trivial⟩
    exact { valid with distinct := one own }
  | distinctOn own =>
    have listed := Tree.ofContents_valid .distinctOn (_, ()) trivial rfl ⟨own, trivial⟩
    exact { valid with distinct := one listed }
  | item own => exact { valid with items := further valid.items (List.forall_mem_singleton.mpr own) }
  | items own => exact { valid with items := further valid.items own }
  | source own => exact { valid with source := one own }
  | join own => exact { valid with joins := further valid.joins (List.forall_mem_singleton.mpr own) }
  | filter own => exact { valid with filter := one (both_valid valid.filter own) }
  | groupBy own =>
    have grouping := Tree.ofContents_valid .groupBy (_, ()) trivial rfl ⟨own, trivial⟩
    exact { valid with groupBy := one grouping }
  | having own => exact { valid with having := one (both_valid valid.having own) }
  | window own => exact { valid with windows := further valid.windows (List.forall_mem_singleton.mpr own) }
  | order own =>
    have old : ∀ t ∈ d.orderBy.getD [], t.Valid := by
      cases given : d.orderBy with
      | none => exact List.forall_mem_nil _
      | some items => exact valid.orderBy items given
    refine { valid with orderBy := ?_ }
    rintro items ⟨⟩
    exact further old (List.forall_mem_singleton.mpr own)
  | limit n => exact { valid with }
  | offset n => exact { valid with }
  | locking own =>
    refine { valid with locking := ?_ }
    rintro l ⟨⟩
    exact own

/-- However a draft was made from nothing, all that was given is valid. -/
theorem run_valid {d : SelectDraft} (run : Relation.ReflTransGen Step empty d) : d.Valid := by
  induction run with
  | refl => exact empty_valid
  | tail _ step ih => exact step.valid ih

theorem Valid.build {d : SelectDraft} (valid : d.Valid) : d.build.Valid := by
  have items : ∀ t ∈ d.parts.items, t.Valid := by
    intro t member
    change t ∈ (if d.items.isEmpty then [SelectItem.star] else d.items) at member
    split at member
    · rw [List.mem_singleton.mp member]
      exact And.intro trivial ⟨rfl, trivial⟩
    · exact valid.items t member
  have orderBy : ∀ t ∈ d.parts.orderBy, t.Valid := by
    intro t member
    obtain ⟨items, given, rfl⟩ := Option.map_eq_some_iff.mp member
    exact Tree.ofContents_valid .orderBy (_, ()) trivial rfl ⟨valid.orderBy items given, trivial⟩
  have limitOffset : ∀ t ∈ d.parts.limitOffset, t.Valid := by
    rintro ⟨⟨window⟩, below⟩ _
    match below with
    | .nil => exact And.intro trivial ⟨rfl, trivial⟩
  have locking : ∀ t ∈ d.parts.locking, t.Valid := by
    intro t member
    obtain ⟨l, given, rfl⟩ := Option.map_eq_some_iff.mp member
    exact And.intro (valid.locking l given) ⟨rfl, trivial⟩
  exact Tree.ofContents_valid .select d.parts.toFill trivial rfl
    ⟨valid.distinct, items, valid.source, valid.joins, valid.filter, valid.groupBy, valid.having,
      valid.windows, orderBy, limitOffset, locking, trivial⟩

end SelectDraft

end SqlTree

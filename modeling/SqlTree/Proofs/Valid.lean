import SqlTree.Build.Condition
import SqlTree.Build.Query
import SqlTree.Build.Select
import SqlTree.Proofs.Filled
import SqlTree.Proofs.Numbered

namespace SqlTree

def Identifier.Valid (i : Identifier) : Prop :=
  i.check = .ok ()

/-- Text that is not blank is an identifier. -/
theorem Identifier.valid_of_text {i : Identifier} (some : Text.isBlank i.value = false) : i.Valid :=
  if_neg (by simp [some])

/-- A name of at least one part, none of which is blank. -/
def QualifiedName.Valid (n : QualifiedName) : Prop :=
  n.parts ≠ [] ∧ ∀ i ∈ n.parts, i.Valid

def TableAlias.Valid (a : TableAlias) : Prop :=
  a.name.Valid ∧ ∀ c ∈ a.columns, c.Valid

def CustomOperator.Valid (op : CustomOperator) : Prop :=
  op.check = .ok () ∧ ∀ schema ∈ op.schema, schema.Valid

def Literal.Valid (l : Literal) : Prop :=
  l.check = .ok ()

def Param.Valid (p : Param) : Prop :=
  p.check = .ok () ∧ ∀ value ∈ p.value, value.Valid

/-- The check of a parameter does not look at its value. -/
theorem Param.valid_some {kind : ParamKind} {value : Literal} :
    (Param.mk kind (some value)).Valid ↔ (Param.mk kind none).check = .ok () ∧ value.Valid :=
  and_congr_right' (by simp)

theorem Param.valid_none {kind : ParamKind} :
    (Param.mk kind none).Valid ↔ (Param.mk kind none).check = .ok () :=
  and_iff_left nofun

/-- The attributes of a form pass their checks. -/
def Form.Valid : {k : Kind} → Form k → Prop
  | _, .literal value => value.Valid
  | _, .column c => (∀ q ∈ c.qualifier, q.Valid) ∧ c.name.Valid
  | _, .param p => p.Valid
  | _, .call name _ => name.Valid
  | _, .callStar name _ => name.Valid
  | _, .customBinary op => op.Valid
  | _, .customUnary op => op.Valid
  | _, .typeName (.named name) _ _ => name.Valid
  | _, .collate collation => collation.Valid
  | _, .namedTable t => (∀ s ∈ t.schema, s.Valid) ∧ t.name.Valid ∧ ∀ a ∈ t.correlation, a.Valid
  | _, .subqueryTable correlation => ∀ a ∈ correlation, a.Valid
  | _, .valuesTable correlation => ∀ a ∈ correlation, a.Valid
  | _, .functionTable correlation => ∀ a ∈ correlation, a.Valid
  | _, .usingJoin _ columns => ∀ c ∈ columns, c.Valid
  | _, .cte name columns _ => name.Valid ∧ ∀ c ∈ columns, c.Valid
  | _, .aliased name => ∀ n ∈ name, n.Valid
  | _, .qualifiedStar name => name.Valid
  | _, .locking l => l.check = .ok () ∧ ∀ t ∈ l.tables, t.Valid
  | _, .windowDef name => name.Valid
  | _, .overName name => name.Valid
  | _, _ => True

mutual

/-- Every node is one that can be built. -/
def Tree.Valid : {k : Kind} → Tree k → Prop
  | _, .node form below => form.Valid ∧ form.check below.contents = .ok () ∧ below.Valid

def Forest.Valid : {slots : List Slot} → Forest slots → Prop
  | _, .nil => True
  | _, .one t rest => t.Valid ∧ rest.Valid
  | _, .absent rest => rest.Valid
  | _, .present t rest => t.Valid ∧ rest.Valid
  | _, .done rest => rest.Valid
  | _, .more t rest => t.Valid ∧ rest.Valid
  | _, .noArm rest => rest.Valid
  | _, .arm c t rest => c.Valid ∧ t.Valid ∧ rest.Valid

end

/-- A forest is valid when all nodes in its slots are. -/
theorem Forest.valid_iff {slots : List Slot} (f : Forest slots) :
    f.Valid ↔ Fill.All (fun t => t.Valid) slots f.contents := by
  cases f with
  | nil => exact Iff.rfl
  | one _ rest => exact and_congr Iff.rfl rest.valid_iff
  | absent rest => exact rest.valid_iff.trans ⟨fun all => ⟨nofun, all⟩, fun both => both.2⟩
  | present _ rest => exact and_congr (by simp) rest.valid_iff
  | done rest => exact rest.valid_iff.trans ⟨fun all => ⟨nofun, all⟩, fun both => both.2⟩
  | more t rest =>
    have both := and_congr (Iff.refl t.Valid) rest.valid_iff
    exact both.trans (and_assoc.symm.trans (and_congr_left' List.forall_mem_cons.symm))
  | noArm rest => exact rest.valid_iff.trans ⟨fun all => ⟨nofun, all⟩, fun both => both.2⟩
  | arm c t rest =>
    have others := rest.valid_iff
    change c.Valid ∧ t.Valid ∧ rest.Valid ↔
      (∀ arm ∈ (c, t) :: rest.contents.1, arm.1.Valid ∧ arm.2.Valid) ∧ Fill.All _ _ rest.contents.2
    rw [List.forall_mem_cons, others]
    exact ⟨fun ⟨first, second, arms, others⟩ => ⟨⟨⟨first, second⟩, arms⟩, others⟩,
      fun ⟨⟨⟨first, second⟩, arms⟩, others⟩ => ⟨first, second, arms, others⟩⟩

/-- What goes over from the nodes below a valid node to the node itself holds of every valid tree. -/
theorem Tree.Valid.induction_below {Q : {k : Kind} → Tree k → Prop}
    (step : ∀ {k : Kind} (form : Form k) (below : Forest form.slots), form.Valid →
      form.check below.contents = .ok () → Fill.All Q form.slots below.contents → Q (.node form below))
    {k : Kind} {t : Tree k} (valid : t.Valid) : Q t := by
  refine Tree.induction_below (Q := fun t => t.Valid → Q t) (fun form below each valid => ?_) t valid
  obtain ⟨attributes, shape, others⟩ := valid
  exact step form below attributes shape (each.mp (below.valid_iff.mp others))

section Nodes

theorem Forest.single_valid {k : Kind} {t : Tree k} : (Forest.one t .nil).Valid ↔ t.Valid :=
  and_iff_left trivial

theorem Forest.pair_valid {j k : Kind} {t : Tree j} {u : Tree k} :
    (Forest.one t (.one u .nil)).Valid ↔ t.Valid ∧ u.Valid :=
  and_congr_right' Forest.single_valid

theorem Form.passed_valid {k : Kind} (form : Form k) {below : Forest form.slots}
    (passed : form.check below.contents = .ok ()) : (Tree.node form below).Valid ↔ form.Valid ∧ below.Valid :=
  and_congr_right' (and_iff_right passed)

/-- Where a form has nothing to check, a node is valid when all below it is. -/
theorem Form.plain_valid {k : Kind} (form : Form k) {below : Forest form.slots} (attributes : form.Valid)
    (passed : form.check below.contents = .ok ()) : (Tree.node form below).Valid ↔ below.Valid :=
  (form.passed_valid passed).trans (and_iff_right attributes)

/-- A node that is made of valid parts and passes its check is valid. -/
theorem Tree.ofContents_valid {k : Kind} (form : Form k) (contents : Fill Tree form.slots)
    (attributes : form.Valid) (passed : form.check contents = .ok ())
    (below : Fill.All (fun t => t.Valid) form.slots contents) : (Tree.ofContents form contents).Valid := by
  refine And.intro attributes ⟨?_, ?_⟩
  · rw [Forest.contents_ofContents]
    exact passed
  · rw [Forest.valid_iff, Forest.contents_ofContents]
    exact below

theorem Expr.of_valid {variant : ExprVariant} {t : Tree variant.kind} : (Expr.of variant t).Valid ↔ t.Valid :=
  ((Form.expr variant).plain_valid trivial rfl).trans Forest.single_valid

theorem Predicate.of_valid {variant : PredicateVariant} {t : Tree variant.kind} :
    (Predicate.of variant t).Valid ↔ t.Valid :=
  ((Form.predicate variant).plain_valid trivial rfl).trans Forest.single_valid

theorem TableRef.of_valid {variant : TableVariant} {t : Tree variant.kind} :
    (TableRef.of variant t).Valid ↔ t.Valid :=
  ((Form.tableRef variant).plain_valid trivial rfl).trans Forest.single_valid

theorem Join.of_valid {variant : JoinVariant} {t : Tree variant.kind} : (Join.of variant t).Valid ↔ t.Valid :=
  ((Form.join variant).plain_valid trivial rfl).trans Forest.single_valid

theorem Query.of_valid {variant : QueryVariant} {t : Tree variant.kind} : (Query.of variant t).Valid ↔ t.Valid :=
  ((Form.query variant).plain_valid trivial rfl).trans Forest.single_valid

namespace Expr

theorem literal_valid {value : Literal} : (literal value).Valid ↔ value.Valid :=
  of_valid.trans (((Form.literal value).passed_valid rfl).trans (and_iff_left trivial))

theorem column_valid {c : ColumnRef} : (column c).Valid ↔ (∀ q ∈ c.qualifier, q.Valid) ∧ c.name.Valid :=
  of_valid.trans (((Form.column c).passed_valid rfl).trans (and_iff_left trivial))

theorem param_valid {p : Param} : (param p).Valid ↔ p.Valid :=
  of_valid.trans (((Form.param p).passed_valid rfl).trans (and_iff_left trivial))

theorem arithmetic_valid {op : ArithmeticOp} {lhs rhs : Expr} :
    (arithmetic op lhs rhs).Valid ↔ lhs.Valid ∧ rhs.Valid :=
  of_valid.trans (((Form.arithmetic op).plain_valid trivial rfl).trans Forest.pair_valid)

theorem negate_valid {e : Expr} : (negate e).Valid ↔ e.Valid :=
  of_valid.trans ((Form.negate.plain_valid trivial rfl).trans Forest.single_valid)

theorem customBinary_valid {op : CustomOperator} {lhs rhs : Expr} :
    (customBinary op lhs rhs).Valid ↔ op.Valid ∧ lhs.Valid ∧ rhs.Valid :=
  of_valid.trans (((Form.customBinary op).passed_valid rfl).trans (and_congr_right' Forest.pair_valid))

theorem customUnary_valid {op : CustomOperator} {e : Expr} :
    (customUnary op e).Valid ↔ op.Valid ∧ e.Valid :=
  of_valid.trans (((Form.customUnary op).passed_valid rfl).trans (and_congr_right' Forest.single_valid))

theorem collate_valid {e : Expr} {collation : QualifiedName} :
    (collate e collation).Valid ↔ collation.Valid ∧ e.Valid :=
  of_valid.trans (((Form.collate collation).passed_valid rfl).trans (and_congr_right' Forest.single_valid))

theorem atTimeZone_valid {e zone : Expr} : (atTimeZone e zone).Valid ↔ e.Valid ∧ zone.Valid :=
  of_valid.trans ((Form.atTimeZone.plain_valid trivial rfl).trans Forest.pair_valid)

theorem array_valid {items : Forest [.many .expr]} :
    (Expr.of .array (.node .array items)).Valid ↔ items.Valid :=
  of_valid.trans (Form.array.plain_valid trivial rfl)

end Expr

theorem Row.node_valid {items : Forest [.many .expr]} : (Tree.node .row items).Valid ↔ items.Valid :=
  Form.row.plain_valid trivial rfl

namespace Predicate

theorem condition_valid {e : Expr} :
    (Predicate.of .condition (.node .condition (.one e .nil))).Valid ↔ e.Valid :=
  of_valid.trans ((Form.condition.plain_valid trivial rfl).trans Forest.single_valid)

theorem negation_valid {p : Predicate} : (negation p).Valid ↔ p.Valid :=
  of_valid.trans ((Form.negation.plain_valid trivial rfl).trans Forest.single_valid)

theorem connective_valid {op : LogicalOp} {p q : Predicate} :
    (connective op p q).Valid ↔ p.Valid ∧ q.Valid :=
  of_valid.trans (((Form.connective op).plain_valid trivial rfl).trans Forest.pair_valid)

end Predicate

theorem OrderItem.make_valid {e : Expr} {direction : Option Direction} {nulls : Option Nulls} :
    (OrderItem.make e direction nulls).Valid ↔ e.Valid :=
  ((Form.orderItem direction nulls).plain_valid trivial rfl).trans Forest.single_valid

theorem SelectItem.ofExpr_valid {e : Expr} : (SelectItem.ofExpr e).Valid ↔ e.Valid :=
  ((Form.aliased none).plain_valid nofun rfl).trans Forest.single_valid

theorem Cte.make_valid {name : Identifier} {columns : List Identifier} {materialization : Materialization}
    {body : Query} :
    (Cte.make name columns materialization body).Valid ↔ (name.Valid ∧ ∀ c ∈ columns, c.Valid) ∧ body.Valid :=
  ((Form.cte name columns materialization).passed_valid rfl).trans
    (and_congr_right' (and_iff_left trivial))

end Nodes

section Editing

variable {σ : Type}

/-- An editor that answers a valid node with valid nodes only, if the editing of the nodes below gives
valid nodes only. -/
def Editor.KeepsValid (r : Editor (StateM σ)) : Prop :=
  ∀ {k : Kind} {t : Tree k}, t.Valid → ∀ below : StateM σ (Option (Tree k)),
    (∀ s, ∀ u ∈ (below.run s).1, u.Valid) → ∀ s, ∀ u ∈ ((r t below).run s).1, u.Valid

variable {r : Editor (StateM σ)}

mutual

/-- Editing checks nothing, and yet keeps trees valid if the editor does: a node that is built anew has the form
it had and as many nodes below it. -/
theorem Tree.Valid.edit (keeps : r.KeepsValid) : {k : Kind} → {t : Tree k} → t.Valid → ∀ s : σ,
    ∀ u ∈ ((t.edit r).run s).1, u.Valid
  | _, .node form below, valid, s => by
    rw [Tree.edit]
    refine keeps valid _ (fun s u member => ?_) s
    obtain ⟨others, renewed, rfl⟩ := Option.map_eq_some_iff.mp member
    obtain ⟨shape, validBelow⟩ := Forest.Valid.edited keeps valid.2.2 s
    have same : ((below.edited r).run s).1 = others := congrArg (Option.getD · below) renewed
    rw [same] at shape validBelow
    have checked := (form.check_eq_of_shape shape).trans valid.2.1
    exact And.intro valid.1 ⟨checked, validBelow⟩

theorem Tree.Valid.edited (keeps : r.KeepsValid) {k : Kind} {t : Tree k} (valid : t.Valid) (s : σ) :
    ((t.edited r).run s).1.Valid := by
  have each := Tree.Valid.edit keeps valid s
  change (((t.edit r).run s).1.getD t).Valid
  cases renewed : ((t.edit r).run s).1 with
  | none => exact valid
  | some u => exact each u renewed

/-- An edited forest has nodes in the same places. -/
theorem Forest.Valid.edited (keeps : r.KeepsValid) : {slots : List Slot} → {f : Forest slots} → f.Valid →
    ∀ s : σ, Fill.SameShape slots ((f.edited r).run s).1.contents f.contents ∧ ((f.edited r).run s).1.Valid
  | _, .nil, _, s => ⟨trivial, trivial⟩
  | _, .one t rest, valid, s => by
    rw [Forest.edited_one]
    obtain ⟨shape, others⟩ := Forest.Valid.edited keeps valid.2 ((t.edited r).run s).2
    exact ⟨⟨trivial, shape⟩, Tree.Valid.edited keeps valid.1 s, others⟩
  | _, .absent rest, valid, s => by
    rw [Forest.edited_absent]
    obtain ⟨shape, others⟩ := Forest.Valid.edited (f := rest) keeps valid s
    exact ⟨⟨.none, shape⟩, others⟩
  | _, .present t rest, valid, s => by
    rw [Forest.edited_present]
    obtain ⟨shape, others⟩ := Forest.Valid.edited keeps valid.2 ((t.edited r).run s).2
    exact ⟨⟨.some trivial, shape⟩, Tree.Valid.edited keeps valid.1 s, others⟩
  | _, .done rest, valid, s => by
    rw [Forest.edited_done]
    obtain ⟨shape, others⟩ := Forest.Valid.edited (f := rest) keeps valid s
    exact ⟨⟨.nil, shape⟩, others⟩
  | _, .more t rest, valid, s => by
    rw [Forest.edited_more]
    obtain ⟨shape, others⟩ := Forest.Valid.edited keeps valid.2 ((t.edited r).run s).2
    exact ⟨⟨.cons trivial shape.1, shape.2⟩, Tree.Valid.edited keeps valid.1 s, others⟩
  | _, .noArm rest, valid, s => by
    rw [Forest.edited_noArm]
    obtain ⟨shape, others⟩ := Forest.Valid.edited (f := rest) keeps valid s
    exact ⟨⟨.nil, shape⟩, others⟩
  | _, .arm c t rest, valid, s => by
    rw [Forest.edited_arm]
    have atCond := Tree.Valid.edited keeps valid.1 s
    have atResult := Tree.Valid.edited keeps valid.2.1 ((c.edited r).run s).2
    obtain ⟨shape, others⟩ := Forest.Valid.edited keeps valid.2.2
      ((t.edited r).run ((c.edited r).run s).2).2
    exact ⟨⟨.cons ⟨trivial, trivial⟩ shape.1, shape.2⟩, atCond, atResult, others⟩

end

end Editing

theorem Param.numbered_valid (index : UInt32) {value : Option Literal}
    (valid : ∀ l ∈ value, l.Valid) : (Param.numbered index value).Valid := by
  have positive : max index 1 ≠ 0 := by
    change (if index ≤ 1 then 1 else index) ≠ 0
    split
    · decide
    · rename_i above
      rintro rfl
      exact above (by decide)
  exact ⟨if_neg positive, valid⟩

/-- Numbered parameters are valid, so numbering keeps trees valid. -/
theorem Numbering.editor_keepsValid : Editor.KeepsValid Numbering.editor := by
  intro k t valid below inner n u member
  obtain ⟨form, forest⟩ := t
  cases form.numbered with
  | literal =>
    match forest, valid with
    | .one (.literal value) .nil, valid =>
      have carried := Expr.literal_valid.mp valid
      have atValue : ∀ l ∈ some value, l.Valid := fun l own => by
        cases own
        exact carried
      change u ∈ ((if value.isNull then below else do
        let p ← next (some value)
        modify fun n => { n with log := n.log ++ [.bound value n.last] }
        return some (Expr.param p) : StateM Numbering (Option Expr)).run n).1 at member
      split at member
      · exact inner n u member
      · cases member
        exact Expr.param_valid.mpr (Param.numbered_valid _ atValue)
  | param =>
    match forest, valid with
    | .one (.param ⟨.anonymous, value⟩) .nil, valid =>
      cases member
      exact Expr.param_valid.mpr (Param.numbered_valid _ (Expr.param_valid.mp valid).2)
    | .one (.param ⟨.named _, _⟩) .nil, _ => exact inner n u member
    | .one (.param ⟨.ordinal _, _⟩) .nil, _ => exact inner n u member
  | typeName base dims zone => cases member
  | plain other =>
    change u ∈ ((Numbering.editor (.node form forest) below).run n).1 at member
    rw [Numbering.editor_plain other] at member
    exact inner n u member

theorem Tree.Valid.numbered {k : Kind} {t : Tree k} (valid : t.Valid) (n : Numbering) :
    (t.numbered n).1.Valid :=
  Tree.Valid.edited Numbering.editor_keepsValid valid n

end SqlTree

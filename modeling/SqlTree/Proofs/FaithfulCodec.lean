import SqlTree.Proofs.Interchange

namespace SqlTree

open Codec

/-- Sound values are decoded from their interchange form as equal ones, and only equal values share one. -/
structure Codec.Faithful (α : Type) [Coded α] [BEq α] (Sound : α → Prop) : Prop where
  restored : ∀ {a : α}, Sound a → ∃ b, decode (encode a) = .ok b ∧ (b == a) = true
  distinct : ∀ {a b : α}, Sound a → Sound b → encode a = encode b → (a == b) = true

namespace Codec.Faithful

variable {α : Type} [Coded α] [BEq α] {Sound : α → Prop}

/-- Values that are kept as they are cannot be confused. -/
theorem of_kept [ReflBEq α] (kept : ∀ {a : α}, Sound a → Kept a) : Faithful α Sound where
  restored := fun {a} sound => ⟨a, kept sound, beq_self_eq_true a⟩
  distinct := fun {a b} sound sound' same => by
    obtain rfl : a = b := eq_of_read (kept sound) (kept sound') same
    exact beq_self_eq_true a

theorem list (faithful : Faithful α Sound) : Faithful (List α) fun items => ∀ a ∈ items, Sound a where
  restored := fun {items} sound => by
    induction items with
    | nil => exact ⟨[], rfl, rfl⟩
    | cons a rest ih =>
      obtain ⟨first, others⟩ := List.forall_mem_cons.mp sound
      obtain ⟨b, atItem, same⟩ := faithful.restored first
      obtain ⟨bs, atRest, same'⟩ := ih others
      refine ⟨b :: bs, ?_, by simp [same, same']⟩
      change ((encode a :: rest.map encode).mapM decode : Decoded (List α)) = _
      rw [List.mapM_cons]
      exact bind_ok₂ atItem atRest fun b bs => .ok (b :: bs)
  distinct := fun {items others} sound sound' same => by
    have forms : items.map encode = others.map encode := Json.array.inj same
    clear same
    induction items generalizing others with
    | nil =>
      cases others with
      | nil => rfl
      | cons => cases forms
    | cons a rest ih =>
      cases others with
      | nil => cases forms
      | cons b others =>
        obtain ⟨first, rest⟩ := List.forall_mem_cons.mp sound
        obtain ⟨first', rest'⟩ := List.forall_mem_cons.mp sound'
        obtain ⟨atItem, atRest⟩ := List.cons.inj forms
        simp [faithful.distinct first first' atItem, ih rest rest' atRest]

theorem of_vocabulary {β : Type} [Enumerated β] [Enumerated.Complete β] [BEq β] [ReflBEq β] :
    Faithful β fun _ => True :=
  of_kept fun {a} _ => kept_enumerated a

end Codec.Faithful

/-- A tree that can be built: every node passes its checks, and every scalar is in range. -/
def Tree.Sound {k : Kind} (t : Tree k) : Prop :=
  t.Valid ∧ t.InRange

theorem Tree.literal_sound {value : Literal} : (Tree.literal value).Sound ↔ value.Valid ∧ value.InRange :=
  and_congr (((Form.literal value).passed_valid rfl).trans (and_iff_left trivial)) (and_iff_left trivial)

theorem Tree.param_sound {p : Param} :
    (Tree.param p).Sound ↔ p.Valid ∧ ∀ value ∈ p.value, value.InRange :=
  and_congr (((Form.param p).passed_valid rfl).trans (and_iff_left trivial)) (and_iff_left trivial)

theorem Expr.of_sound {variant : ExprVariant} {t : Tree variant.kind} : (Expr.of variant t).Sound ↔ t.Sound :=
  and_congr Expr.of_valid ((and_iff_right trivial).trans (and_iff_left trivial))

theorem Row.node_sound {items : Forest [.many .expr]} :
    (Tree.node .row items).Sound ↔ items.Valid ∧ items.InRange :=
  and_congr Row.node_valid (and_iff_right trivial)

theorem Tree.faithful (k : Kind) : Faithful (Tree k) Tree.Sound where
  restored := fun sound => Tree.Valid.restored sound.1 sound.2 (Nat.lt_succ_self _)
  distinct := fun sound sound' same => Tree.Valid.beq_of_toJson ⟨sound.1, sound'.1⟩ ⟨sound.2, sound'.2⟩ same

def CallArgs.Sound : CallArgs → Prop
  | .star => True
  | .list args => ∀ e ∈ args, e.Sound

theorem CallArgs.faithful : Faithful CallArgs CallArgs.Sound where
  restored := fun {args} sound => by
    cases args with
    | star => exact ⟨.star, rfl, rfl⟩
    | list args =>
      obtain ⟨others, decoded, same⟩ := (Tree.faithful .expr).list.restored sound
      exact ⟨.list others, map_ok decoded CallArgs.list, same⟩
  distinct := fun {args others} sound sound' same => by
    cases args with
    | star =>
      cases others with
      | star => rfl
      | list => cases same
    | list args =>
      cases others with
      | star => cases same
      | list others =>
        have forms : encode args = encode others := Option.some.inj (congrArg (Json.get? "List") same)
        exact (Tree.faithful .expr).list.distinct sound sound' forms

def Arm.Sound (arm : Arm) : Prop :=
  arm.cond.Sound ∧ arm.result.Sound

theorem Arm.faithful : Faithful Arm Arm.Sound where
  restored := fun sound => by
    obtain ⟨cond, atCond, same⟩ := (Tree.faithful .expr).restored sound.1
    obtain ⟨result, atResult, same'⟩ := (Tree.faithful .expr).restored sound.2
    exact ⟨⟨cond, result⟩, bind_ok₂ atCond atResult fun cond result => .ok (Arm.mk cond result),
      Bool.and_eq_true_iff.mpr ⟨same, same'⟩⟩
  distinct := fun sound sound' same => Bool.and_eq_true_iff.mpr
    ⟨(Tree.faithful .expr).distinct sound.1 sound'.1 (Option.some.inj (congrArg (Json.get? "when") same)),
      (Tree.faithful .expr).distinct sound.2 sound'.2 (Option.some.inj (congrArg (Json.get? "then") same))⟩

def AliasedExpr.Sound (a : AliasedExpr) : Prop :=
  a.expr.Sound ∧ ∀ i ∈ a.name, i.Valid

theorem AliasedExpr.faithful : Faithful AliasedExpr AliasedExpr.Sound where
  restored := fun {a} sound => by
    obtain ⟨e, atExpr, same⟩ := (Tree.faithful .expr).restored sound.1
    exact ⟨⟨e, a.name⟩,
      bind_ok₂ atExpr (Identifier.readField_alias sound.2) fun e name => .ok (AliasedExpr.mk e name),
      Bool.and_eq_true_iff.mpr ⟨same, beq_self_eq_true a.name⟩⟩
  distinct := fun {a b} sound sound' same => by
    have exprs : encode a.expr = encode b.expr := Option.some.inj (congrArg (Json.get? "expr") same)
    have names : encode a.name = encode b.name := Option.some.inj (congrArg (Json.get? "alias") same)
    have written : a.name = b.name :=
      eq_of_read (Identifier.readField_alias sound.2) (Identifier.readField_alias sound'.2) names
    exact Bool.and_eq_true_iff.mpr
      ⟨(Tree.faithful .expr).distinct sound.1 sound'.1 exprs, beq_iff_eq.mpr written⟩

/-- Decoding undoes encoding for every type of the syntax tree: the nodes of every kind, the parts of nodes
that are no nodes themselves, names, operators, and the vocabularies. -/
theorem Codec.decode_undoes_encode :
    (∀ k, Faithful (Tree k) Tree.Sound) ∧
      Faithful CallArgs CallArgs.Sound ∧ Faithful Arm Arm.Sound ∧ Faithful AliasedExpr AliasedExpr.Sound ∧
      Faithful Identifier Identifier.Valid ∧ Faithful QualifiedName QualifiedName.Valid ∧
      Faithful TableAlias TableAlias.Valid ∧ Faithful CustomOperator CustomOperator.Valid ∧
      Faithful DollarString DollarString.Valid ∧ (Faithful ParamKind fun _ => True) ∧
      (Faithful TypeBase fun base => ∀ name, base = .named name → name.Valid) ∧
      (Faithful QuoteStyle fun _ => True) ∧ (Faithful ArithmeticOp fun _ => True) ∧
      (Faithful ComparisonOp fun _ => True) ∧ (Faithful LogicalOp fun _ => True) ∧
      (Faithful Quantifier fun _ => True) ∧ (Faithful TimeZoneSpec fun _ => True) ∧
      (Faithful Inheritance fun _ => True) ∧ (Faithful JoinKind fun _ => True) ∧
      (Faithful Direction fun _ => True) ∧ (Faithful Nulls fun _ => True) ∧
      (Faithful SetOperator fun _ => True) ∧ (Faithful Materialization fun _ => True) ∧
      (Faithful LockMode fun _ => True) ∧ (Faithful FrameUnit fun _ => True) ∧
      Faithful FrameExclusion fun _ => True :=
  ⟨Tree.faithful, CallArgs.faithful, Arm.faithful, AliasedExpr.faithful, .of_kept Identifier.Valid.kept,
    .of_kept QualifiedName.Valid.kept, .of_kept TableAlias.Valid.kept, .of_kept CustomOperator.Valid.kept,
    .of_kept DollarString.Valid.kept, .of_kept fun {kind} _ => kind.kept, .of_kept TypeBase.kept,
    .of_vocabulary, .of_vocabulary, .of_vocabulary, .of_vocabulary, .of_vocabulary, .of_vocabulary,
    .of_vocabulary, .of_vocabulary, .of_vocabulary, .of_vocabulary, .of_vocabulary, .of_vocabulary,
    .of_vocabulary, .of_vocabulary, .of_vocabulary⟩

/-- A negative zero, a leap second, a parameter without a value and one whose value is NULL. -/
def scalarRow : Tree .row :=
  .node .row
    (.more (Expr.literal (.decimal ⟨true, 0, 2⟩))
      (.more (Expr.literal (.timestamp ⟨⟨2024, 2, 29⟩, ⟨23, 59, 60, 500000000⟩⟩))
        (.more (Expr.param ⟨.named "n", none⟩)
          (.more (Expr.param ⟨.named "n", some .null⟩) (.done .nil)))))

/-- The row is restored, and a missing value is not written as the NULL that a parameter carries. -/
theorem Codec.decode_undoes_encode_row :
    scalarRow.Sound ∧
      (∃ u, (decode (encode scalarRow) : Decoded (Tree .row)) = .ok u ∧ (u == scalarRow) = true) ∧
      encode (Tree.param ⟨.named "n", none⟩) ≠ encode (Tree.param ⟨.named "n", some .null⟩) := by
  have zero : (Expr.literal (.decimal ⟨true, 0, 2⟩)).Sound :=
    Expr.of_sound.mpr (Tree.literal_sound.mpr ⟨rfl, Nat.zero_le _, by decide⟩)
  have second : (Expr.literal (.timestamp ⟨⟨2024, 2, 29⟩, ⟨23, 59, 60, 500000000⟩⟩)).Sound :=
    Expr.of_sound.mpr (Tree.literal_sound.mpr ⟨rfl, rfl, by decide, by decide, by decide, by decide⟩)
  have missing : (Tree.param ⟨.named "n", none⟩).Sound :=
    Tree.param_sound.mpr ⟨Param.valid_none.mpr (by decide), nofun⟩
  have null : (Tree.param ⟨.named "n", some .null⟩).Sound :=
    Tree.param_sound.mpr ⟨Param.valid_some.mpr ⟨by decide, rfl⟩, by rintro _ ⟨⟩; exact trivial⟩
  have third : (Expr.param ⟨.named "n", none⟩).Sound := Expr.of_sound.mpr missing
  have fourth : (Expr.param ⟨.named "n", some .null⟩).Sound := Expr.of_sound.mpr null
  have sound : scalarRow.Sound := Row.node_sound.mpr
    ⟨⟨zero.1, second.1, third.1, fourth.1, trivial⟩, zero.2, second.2, third.2, fourth.2, trivial⟩
  obtain ⟨trees, _⟩ := Codec.decode_undoes_encode
  refine ⟨sound, (trees .row).restored sound, fun same => ?_⟩
  have equal := (trees .param).distinct missing null same
  cases equal

end SqlTree

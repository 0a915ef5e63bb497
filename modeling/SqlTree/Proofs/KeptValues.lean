import SqlTree.Codec.Value
import SqlTree.Proofs.ScalarText
import SqlTree.Proofs.Valid

namespace SqlTree

open Codec

/-- Every member of a vocabulary is found by its name. -/
class Enumerated.Complete (α : Type) [Enumerated α] : Prop where
  ofTag?_tag : ∀ a : α, Enumerated.ofTag? (Enumerated.tag a) = some a

instance : Enumerated.Complete QuoteStyle := ⟨fun a => by cases a <;> rfl⟩

instance : Enumerated.Complete ArithmeticOp := ⟨fun a => by cases a <;> rfl⟩

instance : Enumerated.Complete ComparisonOp := ⟨fun a => by cases a <;> rfl⟩

instance : Enumerated.Complete LogicalOp := ⟨fun a => by cases a <;> rfl⟩

instance : Enumerated.Complete Quantifier := ⟨fun a => by cases a <;> rfl⟩

instance : Enumerated.Complete TimeZoneSpec := ⟨fun a => by cases a <;> rfl⟩

instance : Enumerated.Complete Inheritance := ⟨fun a => by cases a <;> rfl⟩

instance : Enumerated.Complete JoinKind := ⟨fun a => by cases a <;> rfl⟩

instance : Enumerated.Complete Direction := ⟨fun a => by cases a <;> rfl⟩

instance : Enumerated.Complete Nulls := ⟨fun a => by cases a <;> rfl⟩

instance : Enumerated.Complete SetOperator := ⟨fun a => by cases a <;> rfl⟩

instance : Enumerated.Complete Materialization := ⟨fun a => by cases a <;> rfl⟩

instance : Enumerated.Complete LockMode := ⟨fun a => by cases a <;> rfl⟩

instance : Enumerated.Complete FrameUnit := ⟨fun a => by cases a <;> rfl⟩

instance : Enumerated.Complete FrameExclusion := ⟨fun a => by cases a <;> rfl⟩

instance : Enumerated.Complete ExprVariant := ⟨fun a => by cases a <;> rfl⟩

instance : Enumerated.Complete PredicateVariant := ⟨fun a => by cases a <;> rfl⟩

instance : Enumerated.Complete ValueSetVariant := ⟨fun a => by cases a <;> rfl⟩

instance : Enumerated.Complete TableVariant := ⟨fun a => by cases a <;> rfl⟩

instance : Enumerated.Complete JoinVariant := ⟨fun a => by cases a <;> rfl⟩

instance : Enumerated.Complete QueryVariant := ⟨fun a => by cases a <;> rfl⟩

namespace Codec

/-- A value that is decoded from its interchange form as it is. -/
def Kept {α : Type} [Coded α] (a : α) : Prop :=
  decode (encode a) = .ok a

/-- The interchange form of a value is not null. -/
def Solid {α : Type} [Coded α] (a : α) : Prop :=
  (encode a).isNull = false

section

variable {α β γ δ ε : Type} {atA : Decoded α} {atB : Decoded β} {atC : Decoded γ} {atD : Decoded δ}
  {a : α} {b : β} {c : γ} {d : δ}

/-- Readings that succeed hand on what they give. -/
theorem bind_ok (readA : atA = .ok a) (f : α → Decoded ε) : (atA >>= f) = f a := by
  rw [readA]
  rfl

theorem map_ok (readA : atA = .ok a) (f : α → ε) : f <$> atA = .ok (f a) := by
  rw [readA]
  rfl

theorem bind_ok₂ (readA : atA = .ok a) (readB : atB = .ok b) (f : α → β → Decoded ε) :
    (atA >>= fun a => atB >>= fun b => f a b) = f a b :=
  (bind_ok readA _).trans (bind_ok readB _)

theorem bind_ok₃ (readA : atA = .ok a) (readB : atB = .ok b) (readC : atC = .ok c)
    (f : α → β → γ → Decoded ε) :
    (atA >>= fun a => atB >>= fun b => atC >>= fun c => f a b c) = f a b c :=
  (bind_ok readA _).trans (bind_ok₂ readB readC _)

theorem bind_ok₄ (readA : atA = .ok a) (readB : atB = .ok b) (readC : atC = .ok c) (readD : atD = .ok d)
    (f : α → β → γ → δ → Decoded ε) :
    (atA >>= fun a => atB >>= fun b => atC >>= fun c => atD >>= fun d => f a b c d) = f a b c d :=
  (bind_ok readA _).trans (bind_ok₃ readB readC readD _)

/-- What one form is read as is determined by the form. -/
theorem eq_of_read {read : Json → Decoded α} {j j' : Json} {a b : α} (left : read j = .ok a)
    (right : read j' = .ok b) (same : j = j') : a = b := by
  rw [same] at left
  exact Except.ok.inj (left.symm.trans right)

end

theorem kept_enumerated {α : Type} [Enumerated α] [Enumerated.Complete α] (a : α) : Kept a := by
  change present (Enumerated.ofTag? (Enumerated.tag a)) = .ok a
  rw [Enumerated.Complete.ofTag?_tag]
  rfl

theorem kept_string (s : String) : Kept s := rfl

theorem whole_integer {low high n : Int} (lower : low ≤ n) (upper : n ≤ high) :
    whole low high (.integer n) = .ok n :=
  if_pos ⟨lower, upper⟩

theorem kept_int64 (n : Int64) : Kept n := by
  change (whole _ _ (.integer n.toInt) >>= fun m => Except.ok (Int64.ofInt m)) = _
  rw [whole_integer n.minValue_le_toInt n.toInt_le]
  exact congrArg Except.ok (Int64.ofInt_toInt n)

theorem kept_uint32 (n : UInt32) : Kept n := by
  change (whole _ _ (.integer n.toNat) >>= fun m => Except.ok (UInt32.ofNat m.toNat)) = _
  have small := n.toNat_lt_size
  rw [whole_integer (by omega) (by omega)]
  exact congrArg Except.ok (UInt32.ofNat_toNat)

theorem kept_uint64 (n : UInt64) : Kept n := by
  change (whole _ _ (.integer n.toNat) >>= fun m => Except.ok (UInt64.ofNat m.toNat)) = _
  have small := n.toNat_lt_size
  rw [whole_integer (by omega) (by omega)]
  exact congrArg Except.ok (UInt64.ofNat_toNat)

/-- Items that are restored one by one are restored together. -/
theorem mapM_encode {α β : Type} [Coded α] (restore : α → β) {decodeItem : Json → Decoded β}
    {items : List α} (each : ∀ a ∈ items, decodeItem (encode a) = .ok (restore a)) :
    (items.map encode).mapM decodeItem = .ok (items.map restore) := by
  induction items with
  | nil => rfl
  | cons a rest ih =>
    obtain ⟨first, others⟩ := List.forall_mem_cons.mp each
    rw [List.map_cons, List.mapM_cons, first, ih others]
    rfl

theorem kept_list {α : Type} [Coded α] {items : List α} (kept : ∀ a ∈ items, Kept a) : Kept items := by
  have decoded := mapM_encode id kept
  rwa [List.map_id] at decoded

/-- What is read in a field that may be null. -/
def readField {β : Type} (decodeValue : Json → Decoded β) (j : Json) : Decoded (Option β) :=
  match (some j).filter fun j => !j.isNull with
  | some j => some <$> decodeValue j
  | none => .ok none

/-- A value that may be missing is restored from its field, unless it is written as null. -/
theorem readField_encode {α β : Type} [Coded α] (restore : α → β) {decodeValue : Json → Decoded β}
    {o : Option α} (each : ∀ a ∈ o, decodeValue (encode a) = .ok (restore a)) (solid : ∀ a ∈ o, Solid a) :
    readField decodeValue (encode o) = .ok (o.map restore) := by
  cases o with
  | none => rfl
  | some a =>
    have there : (some (encode a)).filter (fun j => !j.isNull) = some (encode a) := by
      simp [show (encode a).isNull = false from solid a rfl]
    change readField decodeValue (encode a) = _
    rw [readField, there]
    exact map_ok (each a rfl) some

theorem readField_kept {α : Type} [Coded α] {o : Option α} (kept : ∀ a ∈ o, Kept a)
    (solid : ∀ a ∈ o, Solid a) : readField decode (encode o) = .ok o :=
  (readField_encode id kept solid).trans (congrArg Except.ok Option.map_id')

end Codec

theorem Identifier.Valid.kept {i : Identifier} (valid : i.Valid) : Kept i := by
  have solid : Text.isBlank i.value = false := by
    have checked : (if Text.isBlank i.value then .error .blankIdentifier else .ok () : Checked Unit) = .ok () :=
      valid
    cases blank : Text.isBlank i.value with
    | false => rfl
    | true =>
      rw [blank] at checked
      cases checked
  refine (bind_ok (kept_enumerated i.style) fun style => (Identifier.styled i.value style).decoded).trans ?_
  rw [Identifier.styled, solid]
  rfl

theorem Identifier.kept_all {is : List Identifier} (valid : ∀ i ∈ is, i.Valid) : Kept is :=
  kept_list fun i member => (valid i member).kept

theorem QualifiedName.Valid.kept {n : QualifiedName} (valid : n.Valid) : Kept n := by
  refine (bind_ok (Identifier.kept_all valid.2) fun parts => (QualifiedName.make parts).decoded).trans ?_
  have some : n.parts.isEmpty = false := by simpa using valid.1
  rw [QualifiedName.make, some]
  rfl

theorem TableAlias.Valid.kept {a : TableAlias} (valid : a.Valid) : Kept a :=
  bind_ok₂ valid.1.kept (Identifier.kept_all valid.2) fun name columns => .ok (TableAlias.mk name columns)

/-- What is read where an alias may have been written. -/
theorem Identifier.readField_alias {o : Option Identifier} (valid : ∀ i ∈ o, i.Valid) :
    readField decode (encode o) = .ok o :=
  readField_kept (fun i member => (valid i member).kept) fun _ _ => rfl

theorem TableAlias.readField_alias {o : Option TableAlias} (valid : ∀ a ∈ o, a.Valid) :
    readField decode (encode o) = .ok o :=
  readField_kept (fun a member => (valid a member).kept) fun _ _ => rfl

theorem Enumerated.readField_member {α : Type} [Enumerated α] [Enumerated.Complete α] (o : Option α) :
    readField decode (encode o) = .ok o :=
  readField_kept (fun a _ => kept_enumerated a) fun _ _ => rfl

/-- The qualifier of a column and the name of it are not blank. -/
def ColumnRef.Valid (c : ColumnRef) : Prop :=
  (∀ q ∈ c.qualifier, q.Valid) ∧ c.name.Valid

theorem ColumnRef.Valid.kept {c : ColumnRef} (valid : c.Valid) : Kept c :=
  bind_ok₂ (Identifier.readField_alias valid.1) valid.2.kept fun qualifier name => .ok (ColumnRef.mk qualifier name)

def NamedTable.Valid (t : NamedTable) : Prop :=
  (∀ s ∈ t.schema, s.Valid) ∧ t.name.Valid ∧ ∀ a ∈ t.correlation, a.Valid

theorem NamedTable.Valid.kept {t : NamedTable} (valid : t.Valid) : Kept t :=
  bind_ok₄ (Identifier.readField_alias valid.1) valid.2.1.kept (TableAlias.readField_alias valid.2.2)
    (kept_enumerated t.inheritance) fun schema name correlation inheritance =>
      .ok (NamedTable.mk schema name correlation inheritance)

theorem CustomOperator.Valid.kept {op : CustomOperator} (valid : op.Valid) : Kept op := by
  have schema : readField decode (encode op.schema) = .ok op.schema :=
    readField_kept (fun n member => (valid.2 n member).kept) fun _ _ => rfl
  refine (bind_ok schema fun schema => (CustomOperator.make schema op.symbol).decoded).trans ?_
  have checked : op.check = .ok () := valid.1
  change (op.check >>= fun _ => Except.ok op).decoded = _
  rw [checked]
  rfl

theorem TypeBase.kept {base : TypeBase} (valid : ∀ name, base = .named name → name.Valid) : Kept base := by
  cases base with
  | keyword word => rfl
  | named name => exact (bind_ok (valid name rfl).kept fun name => .ok (TypeBase.named name))

theorem LimitOffset.kept (w : LimitOffset) : Kept w := by
  have read : ∀ o : Option UInt64, readField decode (encode o) = .ok o := fun o =>
    readField_kept (fun n _ => kept_uint64 n) fun _ _ => rfl
  exact bind_ok₂ (read w.limit) (read w.offset) fun limit offset => .ok (LimitOffset.mk limit offset)

def Locking.Valid (l : Locking) : Prop :=
  l.check = .ok () ∧ ∀ t ∈ l.tables, t.Valid

theorem Locking.Valid.kept {l : Locking} (valid : l.Valid) : Kept l := by
  have tables : Kept l.tables := kept_list fun n member => (valid.2 n member).kept
  refine (bind_ok₂ (kept_enumerated l.mode) tables fun mode tables =>
    (Locking.make mode tables l.nowait l.skipLocked).decoded).trans ?_
  change (l.check >>= fun _ => Except.ok l).decoded = _
  rw [valid.1]
  rfl

theorem ParamKind.kept (kind : ParamKind) : Kept kind := by
  cases kind with
  | anonymous => rfl
  | named name => rfl
  | ordinal index => exact map_ok (kept_uint32 index) ParamKind.ordinal

def DollarString.Valid (s : DollarString) : Prop :=
  s.check = .ok ()

theorem DollarString.Valid.kept {s : DollarString} (valid : s.Valid) : Kept s := by
  have tag : readField decode (encode s.tag) = .ok s.tag := readField_kept (fun _ _ => rfl) fun _ _ => rfl
  refine (bind_ok tag fun tag => (DollarString.make tag s.body).decoded).trans ?_
  change (s.check >>= fun _ => Except.ok s).decoded = _
  rw [show s.check = .ok () from valid]
  rfl

/-- A decimal without the sign of a zero. -/
def Decimal.settled (d : Decimal) : Decimal :=
  .signed d.negative d.coefficient d.scale

theorem Decimal.InRange.decode_encode {d : Decimal} (range : d.InRange) :
    decode (encode d) = .ok d.settled := by
  change present (Decimal.ofText? d.text) = _
  rw [Decimal.ofText?_text range]
  rfl

theorem Date.InRange.kept {d : Date} (range : d.InRange) : Kept d := by
  refine (bind_ok (kept_string d.text) fun s => present (Date.ofText? s)).trans ?_
  rw [Date.ofText?_text range]
  rfl

theorem Time.InRange.kept {t : Time} (range : t.InRange) : Kept t := by
  refine (bind_ok (kept_string t.text) fun s => present (Time.ofText? s)).trans ?_
  rw [Time.ofText?_text range]
  rfl

theorem Timestamp.InRange.kept {t : Timestamp} (range : t.InRange) : Kept t := by
  refine (bind_ok (kept_string t.text) fun s => present (Timestamp.ofText? s)).trans ?_
  rw [Timestamp.ofText?_text range]
  rfl

theorem Decimal.beq_of_settled {a b : Decimal} (same : a.settled = b.settled) : (a == b) = true := by
  obtain ⟨sign, coefficient, scale⟩ := a
  obtain ⟨sign', coefficient', scale'⟩ := b
  obtain ⟨signs, rfl, rfl⟩ := Decimal.mk.inj same
  change (shifted ⟨sign, coefficient, scale⟩ (max scale scale) ==
    shifted ⟨sign', coefficient, scale⟩ (max scale scale)) = true
  by_cases zero : coefficient = 0
  · simp [shifted, zero]
  · obtain rfl : sign = sign' := by simpa [zero] using signs
    exact beq_self_eq_true _

namespace Literal

/-- The scalars that have ranges are in them. -/
def InRange : Literal → Prop
  | .decimal d => d.InRange
  | .date d => d.InRange
  | .time t => t.InRange
  | .timestamp t => t.InRange
  | _ => True

/-- A literal without the sign of a decimal zero. -/
def settled : Literal → Literal
  | .decimal d => .decimal d.settled
  | l => l

instance : ReflBEq Literal where
  rfl {l} := by
    cases l with
    | null => rfl
    | decimal d => exact Decimal.beq_of_settled rfl
    | boolean a | integer a | string a | date a | time a | timestamp a | interval a | bitString a
    | hexString a | escapeString a | dollarString a => exact (beq_self_eq_true a :)

theorem settled_beq (l : Literal) : (l.settled == l) = true := by
  cases l with
  | decimal d => exact d.signed_beq
  | _ => exact beq_self_eq_true _

theorem beq_of_settled {a b : Literal} (same : a.settled = b.settled) : (a == b) = true := by
  cases a with
  | decimal d =>
    cases b with
    | decimal e => exact Decimal.beq_of_settled (Literal.decimal.inj same)
    | _ => cases same
  | _ =>
    cases b <;> cases same
    exact beq_self_eq_true _

theorem solid (l : Literal) : Solid l := by
  cases l <;> rfl

theorem decode_decimal (payload : Json) :
    decode (tagged "Decimal" payload) = Literal.decimal <$> decode payload :=
  rfl

theorem decode_date (payload : Json) :
    decode (tagged "Date" payload) = Literal.date <$> decode payload :=
  rfl

theorem decode_time (payload : Json) :
    decode (tagged "Time" payload) = Literal.time <$> decode payload :=
  rfl

theorem decode_timestamp (payload : Json) :
    decode (tagged "Timestamp" payload) = Literal.timestamp <$> decode payload :=
  rfl

/-- A literal is decoded as it is, but for the sign of a zero. -/
theorem Valid.decode_encode {l : Literal} (valid : l.Valid) (range : l.InRange) :
    decode (encode l) = .ok l.settled := by
  cases l with
  | null | boolean | string | interval | escapeString => rfl
  | integer n => exact map_ok (kept_int64 n) Literal.integer
  | decimal d => exact (decode_decimal _).trans (map_ok (Decimal.InRange.decode_encode range) _)
  | date d => exact (decode_date _).trans (map_ok (Date.InRange.kept range) _)
  | time t => exact (decode_time _).trans (map_ok (Time.InRange.kept range) _)
  | timestamp t => exact (decode_timestamp _).trans (map_ok (Timestamp.InRange.kept range) _)
  | bitString bits =>
    change (checkBits bits >>= fun _ => Except.ok (Literal.bitString bits)).decoded = _
    rw [show checkBits bits = .ok () from valid]
    rfl
  | hexString digits =>
    change (checkHexDigits digits >>= fun _ => Except.ok (Literal.hexString digits)).decoded = _
    rw [show checkHexDigits digits = .ok () from valid]
    rfl
  | dollarString s =>
    exact map_ok (DollarString.Valid.kept valid) Literal.dollarString

end Literal

namespace Param

def settled (p : Param) : Param :=
  { p with value := p.value.map Literal.settled }

theorem settled_beq (p : Param) : (p.settled == p) = true := by
  obtain ⟨kind, value⟩ := p
  change (kind == kind && value.map Literal.settled == value) = true
  rw [beq_self_eq_true, Bool.true_and]
  cases value with
  | none => rfl
  | some value => exact value.settled_beq

theorem beq_of_settled {p q : Param} (same : p.settled = q.settled) : (p == q) = true := by
  obtain ⟨kind, value⟩ := p
  obtain ⟨kind', value'⟩ := q
  obtain ⟨rfl, values⟩ := Param.mk.inj same
  change (kind == kind && value == value') = true
  rw [beq_self_eq_true, Bool.true_and]
  cases value with
  | none =>
    cases value' with
    | none => rfl
    | some => cases values
  | some value =>
    cases value' with
    | none => cases values
    | some value' => exact Literal.beq_of_settled (Option.some.inj values)

/-- A parameter is decoded as it is, but for the sign of a zero. -/
theorem Valid.decode_encode {p : Param} (valid : p.Valid) (range : ∀ value ∈ p.value, value.InRange) :
    decode (encode p) = .ok p.settled := by
  have value : readField decode (encode p.value) = .ok (p.value.map Literal.settled) :=
    readField_encode Literal.settled
      (fun value carried => (valid.2 value carried).decode_encode (range value carried)) fun value _ => value.solid
  refine (bind_ok₂ p.kind.kept value fun kind value =>
    let p : Param := ⟨kind, value⟩
    p.check.decoded >>= fun _ => .ok p).trans ?_
  change (p.check.decoded >>= fun _ => Except.ok p.settled) = _
  rw [valid.1]
  rfl

end Param

end SqlTree

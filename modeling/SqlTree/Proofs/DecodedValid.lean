import SqlTree.Codec.Tree
import SqlTree.Proofs.KeptValues

namespace SqlTree

open Codec

theorem Checked.decoded_ok {check : Checked Unit} : check.decoded = .ok () ↔ check = .ok () := by
  cases check with
  | error cause => exact ⟨nofun, nofun⟩
  | ok u => exact ⟨fun _ => rfl, fun _ => rfl⟩

/-- What a step gives, if it gives anything, has a property. -/
def Gives {ε α : Type} (P : α → Prop) (x : Except ε α) : Prop :=
  ∀ a, x = .ok a → P a

namespace Gives

variable {ε α β : Type} {P : α → Prop} {Q : β → Prop} {x : Except ε α}

theorem ok {a : α} (holds : P a) : Gives (ε := ε) P (.ok a) := by
  rintro _ ⟨⟩
  exact holds

theorem error (e : ε) : Gives P (.error e) :=
  nofun

theorem anything (x : Except ε α) : Gives (fun _ => True) x :=
  fun _ _ => trivial

theorem mono {P' : α → Prop} (gives : Gives P x) (weaker : ∀ a, P a → P' a) : Gives P' x :=
  fun a result => weaker a (gives a result)

theorem bind {f : α → Except ε β} (first : Gives P x) (next : ∀ a, P a → Gives Q (f a)) :
    Gives Q (x >>= f) := by
  cases x with
  | error e => exact error e
  | ok a => exact next a (first a rfl)

theorem map {f : α → β} (gives : Gives (fun a => Q (f a)) x) : Gives Q (f <$> x) :=
  gives.bind fun _ holds => ok holds

/-- A check that is passed before a value is handed on. -/
theorem checked {check : Except ε Unit} {a : α} (holds : check = .ok () → P a) :
    Gives P (check >>= fun _ => pure a) := by
  cases check with
  | error e => exact error e
  | ok u => exact ok (holds rfl)

theorem ite {c : Prop} [Decidable c] {y : Except ε α} (yes : Gives P x) (no : Gives P y) :
    Gives P (if c then x else y) := by
  split
  · exact yes
  · exact no

/-- Steps on the items of a list give one result each. -/
theorem mapM {f : β → Except ε α} (each : ∀ b, Gives P (f b)) (items : List β) :
    Gives (fun results => (∀ a ∈ results, P a) ∧ List.Forall₂ (fun _ _ => True) results items)
      (items.mapM f) := by
  induction items with
  | nil => exact ok ⟨nofun, .nil⟩
  | cons b rest ih =>
    rw [List.mapM_cons]
    refine (each b).bind fun a first => ih.bind fun others ⟨all, same⟩ => ok ?_
    exact ⟨List.forall_mem_cons.mpr ⟨first, all⟩, .cons trivial same⟩

theorem decoded {x : Checked α} (gives : Gives P x) : Gives P x.decoded := by
  cases x with
  | error cause => exact error (DecodeError.rejected cause)
  | ok a => exact ok (gives a rfl)

end Gives

/-- Everything that is decoded has a property. -/
def Codec.Sound {α : Type} [Coded α] (P : α → Prop) : Prop :=
  ∀ j : Json, Gives P (decode j : Decoded α)

namespace Codec.Sound

variable {α : Type} [Coded α] {P : α → Prop} (sound : Codec.Sound P)

include sound

theorem required (fs : List (String × Json)) (name : String) :
    Gives P (Codec.required fs name : Decoded α) :=
  (Gives.anything _).bind fun j _ => sound j

theorem defaulted (fs : List (String × Json)) (name : String) {missing : α} (own : P missing) :
    Gives P (Codec.defaulted fs name missing) := by
  unfold Codec.defaulted
  cases Json.field? name fs with
  | none => exact .ok own
  | some j => exact sound j

theorem optionalValue (fs : List (String × Json)) (name : String) :
    Gives (fun value => ∀ a ∈ value, P a) (Codec.optionalValue fs name : Decoded (Option α)) := by
  unfold Codec.optionalValue
  cases Codec.optional fs name with
  | none => exact .ok nofun
  | some j =>
    refine Gives.map ((sound j).mono fun a holds b member => ?_)
    cases member
    exact holds

theorem list : Codec.Sound fun items : List α => ∀ a ∈ items, P a := by
  intro j
  cases j with
  | array items => exact (Gives.mapM sound items).mono fun _ results => results.1
  | _ => exact .error _

end Codec.Sound

theorem Identifier.styled_gives (value : String) (style : QuoteStyle) :
    Gives Identifier.Valid (Identifier.styled value style) := by
  unfold Identifier.styled
  split
  · exact .error _
  · rename_i solid
    exact .ok (if_neg solid)

theorem Identifier.decode_sound : Codec.Sound Identifier.Valid := fun _ =>
  (Gives.anything _).bind fun _ _ => (Gives.anything _).bind fun value _ =>
    (Gives.anything _).bind fun style _ => (Identifier.styled_gives value style).decoded

theorem QualifiedName.make_gives {parts : List Identifier} (valid : ∀ i ∈ parts, i.Valid) :
    Gives QualifiedName.Valid (QualifiedName.make parts) := by
  unfold QualifiedName.make
  cases parts with
  | nil => exact .error _
  | cons i rest => exact .ok ⟨by simp, valid⟩

theorem QualifiedName.decode_sound : Codec.Sound QualifiedName.Valid := fun j =>
  (Identifier.decode_sound.list j).bind fun _ valid => (QualifiedName.make_gives valid).decoded

theorem CustomOperator.make_gives {schema : Option QualifiedName} (valid : ∀ s ∈ schema, s.Valid)
    (symbol : String) : Gives CustomOperator.Valid (CustomOperator.make schema symbol) :=
  .checked fun passed => ⟨passed, valid⟩

theorem CustomOperator.decode_sound : Codec.Sound CustomOperator.Valid := fun _ =>
  (Gives.anything _).bind fun fs _ => (QualifiedName.decode_sound.optionalValue fs "schema").bind
    fun _ valid => (Gives.anything _).bind fun symbol _ => (CustomOperator.make_gives valid symbol).decoded

theorem Literal.ofBits_gives (bits : String) : Gives Literal.Valid (Literal.ofBits bits) :=
  .checked fun passed => passed

theorem Literal.ofHexDigits_gives (digits : String) : Gives Literal.Valid (Literal.ofHexDigits digits) :=
  .checked fun passed => passed

theorem DollarString.make_gives (tag : Option String) (body : String) :
    Gives DollarString.Valid (DollarString.make tag body) :=
  .checked fun passed => passed

theorem DollarString.decode_sound : Codec.Sound DollarString.Valid := fun _ =>
  (Gives.anything _).bind fun _ _ => (Gives.anything _).bind fun tag _ =>
    (Gives.anything _).bind fun body _ => (DollarString.make_gives tag body).decoded

theorem Literal.decode_sound : Codec.Sound Literal.Valid := by
  have plain : ∀ {β : Type} [Coded β] (make : β → Literal) (p : Json), (∀ b, (make b).Valid) →
      Gives Literal.Valid (make <$> decode p) := fun make p valid =>
    .map ((Gives.anything (decode p)).mono fun b _ => valid b)
  intro j
  refine (Gives.anything (Codec.variant j)).bind fun shape _ => ?_
  split
  · exact .ite (.ok rfl) (.error _)
  · exact plain .boolean _ fun _ => rfl
  · exact plain .integer _ fun _ => rfl
  · exact plain .decimal _ fun _ => rfl
  · exact plain .string _ fun _ => rfl
  · exact plain .date _ fun _ => rfl
  · exact plain .time _ fun _ => rfl
  · exact plain .timestamp _ fun _ => rfl
  · exact plain .interval _ fun _ => rfl
  · exact (Gives.anything _).bind fun bits _ => (Literal.ofBits_gives bits).decoded
  · exact (Gives.anything _).bind fun digits _ => (Literal.ofHexDigits_gives digits).decoded
  · exact plain .escapeString _ fun _ => rfl
  · exact .map (DollarString.decode_sound _)
  · exact .error _

theorem Param.decode_sound : Codec.Sound Param.Valid := fun _ =>
  (Gives.anything _).bind fun fs _ => (Gives.anything _).bind fun _ _ =>
    (Literal.decode_sound.optionalValue fs "value").bind fun _ carried =>
      .checked fun passed => ⟨Checked.decoded_ok.mp passed, carried⟩

/-- A type that is named, and not a keyword, has a valid name. -/
theorem TypeBase.decode_sound : Codec.Sound fun base : TypeBase => ∀ name, base = .named name → name.Valid := by
  intro j
  refine (Gives.anything (variant j)).bind fun shape _ => ?_
  split
  · exact .map ((Gives.anything _).mono fun _ _ => nofun)
  · refine .map ((QualifiedName.decode_sound _).mono fun name valid other same => ?_)
    cases same
    exact valid
  · exact .error _

theorem ColumnRef.decode_sound : Codec.Sound ColumnRef.Valid := fun _ =>
  (Gives.anything _).bind fun fs _ => (Identifier.decode_sound.optionalValue fs "qualifier").bind
    fun _ qualifier => (Identifier.decode_sound.required fs "name").bind fun _ name => .ok ⟨qualifier, name⟩

theorem TableAlias.decode_sound : Codec.Sound TableAlias.Valid := fun _ =>
  (Gives.anything _).bind fun fs _ => (Identifier.decode_sound.required fs "name").bind fun _ name =>
    (Identifier.decode_sound.list.required fs "columns").bind fun _ columns => .ok ⟨name, columns⟩

theorem NamedTable.decode_sound : Codec.Sound NamedTable.Valid := fun _ =>
  (Gives.anything _).bind fun fs _ => (Identifier.decode_sound.optionalValue fs "schema").bind
    fun _ schema => (Identifier.decode_sound.required fs "name").bind fun _ name =>
      (TableAlias.decode_sound.optionalValue fs "alias").bind fun _ correlation =>
        (Gives.anything _).bind fun _ _ => .ok ⟨schema, name, correlation⟩

theorem Locking.make_gives (mode : LockMode) {tables : List QualifiedName} (valid : ∀ t ∈ tables, t.Valid)
    (nowait skipLocked : Bool) : Gives Locking.Valid (Locking.make mode tables nowait skipLocked) :=
  .checked fun passed => ⟨passed, valid⟩

theorem Locking.decode_sound : Codec.Sound Locking.Valid := fun _ =>
  (Gives.anything _).bind fun fs _ => (Gives.anything _).bind fun mode _ =>
    (QualifiedName.decode_sound.list.defaulted fs "of_tables" (List.forall_mem_nil _)).bind fun _ tables =>
      (Gives.anything _).bind fun nowait _ => (Gives.anything _).bind fun skipLocked _ =>
        (Locking.make_gives mode tables nowait skipLocked).decoded

theorem Form.typeName_valid {base : TypeBase} (named : ∀ name, base = .named name → name.Valid)
    (dims : UInt32) (zone : TimeZoneSpec) : (Form.typeName base dims zone).Valid := by
  cases base with
  | keyword word => exact trivial
  | named name => exact named name rfl

/-- The attributes of a form that is read have passed their checks. Most forms have none that are
checked. -/
theorem Form.read_gives (k : Kind) (j : Json) : Gives (fun node => node.1.Valid) (Form.read k j) := by
  cases k with
  | literal => exact (Literal.decode_sound j).bind fun _ valid => .ok valid
  | column => exact (ColumnRef.decode_sound j).bind fun _ valid => .ok valid
  | param => exact (Param.decode_sound j).bind fun _ valid => .ok valid
  | namedTable => exact (NamedTable.decode_sound j).bind fun _ valid => .ok valid
  | locking => exact (Locking.decode_sound j).bind fun _ valid => .ok valid
  | function =>
    refine (Gives.anything _).bind fun fs _ => (QualifiedName.decode_sound.required fs "name").bind
      fun name valid => (Gives.anything _).bind fun unique _ => ?_
    refine (Gives.anything _).bind fun args _ => (Gives.anything _).bind fun shape _ => ?_
    split
    · exact .ite (.ok valid) (.error _)
    · exact (Gives.anything _).bind fun _ _ => .ok valid
    · exact .error _
  | customBinary =>
    exact (Gives.anything _).bind fun fs _ => (CustomOperator.decode_sound.required fs "operator").bind
      fun _ valid => (Gives.anything _).bind fun _ _ => (Gives.anything _).bind fun _ _ => .ok valid
  | customUnary =>
    exact (Gives.anything _).bind fun fs _ => (CustomOperator.decode_sound.required fs "operator").bind
      fun _ valid => (Gives.anything _).bind fun _ _ => .ok valid
  | typeName =>
    refine (Gives.anything _).bind fun fs _ => ?_
    dsimp only
    split
    all_goals
      exact (Gives.anything _).bind fun _ _ => (TypeBase.decode_sound.required fs "base").bind
        fun _ valid => (Gives.anything _).bind fun _ _ => (Gives.anything _).bind fun _ _ =>
          .ok (Form.typeName_valid valid _ _)
  | collate =>
    exact (Gives.anything _).bind fun fs _ => (QualifiedName.decode_sound.required fs "collation").bind
      fun _ valid => (Gives.anything _).bind fun _ _ => .ok valid
  | subqueryTable =>
    exact (Gives.anything _).bind fun fs _ => (TableAlias.decode_sound.optionalValue fs "alias").bind
      fun _ valid => (Gives.anything _).bind fun _ _ => .ok valid
  | valuesTable =>
    exact (Gives.anything _).bind fun fs _ => (TableAlias.decode_sound.optionalValue fs "alias").bind
      fun _ valid => (Gives.anything _).bind fun _ _ => .ok valid
  | functionTable =>
    exact (Gives.anything _).bind fun fs _ => (TableAlias.decode_sound.optionalValue fs "alias").bind
      fun _ valid => (Gives.anything _).bind fun _ _ => .ok valid
  | usingJoin =>
    exact (Gives.anything _).bind fun fs _ => (Gives.anything _).bind fun _ _ =>
      (Identifier.decode_sound.list.required fs "columns").bind fun _ valid =>
        (Gives.anything _).bind fun _ _ => .ok valid
  | cte =>
    exact (Gives.anything _).bind fun fs _ => (Identifier.decode_sound.required fs "name").bind
      fun _ name => (Identifier.decode_sound.list.required fs "columns").bind fun _ columns =>
        (Gives.anything _).bind fun _ _ => .ok ⟨name, columns⟩
  | selectItem =>
    refine (Gives.anything _).bind fun shape _ => ?_
    split
    · exact .ite (.ok trivial) (.error _)
    · exact (QualifiedName.decode_sound _).bind fun _ valid => .ok valid
    · exact (Gives.anything _).bind fun fs _ => (Identifier.decode_sound.optionalValue fs "alias").bind
        fun _ valid => (Gives.anything _).bind fun _ _ => .ok valid
    · exact .error _
  | windowDef =>
    exact (Gives.anything _).bind fun fs _ => (Identifier.decode_sound.required fs "name").bind
      fun _ valid => (Gives.anything _).bind fun _ _ => .ok valid
  | overClause =>
    refine (Gives.anything _).bind fun shape _ => ?_
    split
    · exact (Identifier.decode_sound _).bind fun _ valid => .ok valid
    · exact .ok trivial
    · exact .error _
  | _ =>
    rintro ⟨form, _⟩ _
    cases form <;> exact trivial

/-- The nodes that fill slots are decoded one for one. -/
theorem Forest.decode_gives {node : (k : Kind) → Json → Decoded (Tree k)}
    (each : ∀ (k : Kind) (j : Json), Gives Tree.Valid (node k j)) :
    (slots : List Slot) → (sources : Sources slots) →
    Gives (fun f => Fill.SameShape slots f.contents sources ∧ f.Valid) (Forest.decode node slots sources)
  | [], _ => .ok ⟨trivial, trivial⟩
  | .one k :: slots, (j, rest) =>
    (each k j).bind fun _ valid => (Forest.decode_gives each slots rest).bind fun _ others =>
      .ok ⟨⟨trivial, others.1⟩, valid, others.2⟩
  | .opt k :: slots, (none, rest) =>
    (Forest.decode_gives each slots rest).bind fun _ others => .ok ⟨⟨.none, others.1⟩, others.2⟩
  | .opt k :: slots, (some j, rest) =>
    (each k j).bind fun _ valid => (Forest.decode_gives each slots rest).bind fun _ others =>
      .ok ⟨⟨.some trivial, others.1⟩, valid, others.2⟩
  | .many k :: slots, (js, rest) => by
    refine (Gives.mapM (each k) js).bind fun ts ⟨valid, same⟩ =>
      (Forest.decode_gives each slots rest).bind fun below others => .ok ?_
    rw [Forest.valid_iff, Forest.contents_ofList]
    exact ⟨⟨same, others.1⟩, valid, below.valid_iff.mp others.2⟩
  | .arms :: slots, (js, rest) => by
    have arm : ∀ j : Json × Json, Gives (fun arm : Expr × Expr => arm.1.Valid ∧ arm.2.Valid) (do
        let c ← node .expr j.1
        return (c, ← node .expr j.2)) := fun j =>
      (each .expr j.1).bind fun _ first => (each .expr j.2).bind fun _ second => .ok ⟨first, second⟩
    refine (Gives.mapM arm js).bind fun arms ⟨valid, same⟩ =>
      (Forest.decode_gives each slots rest).bind fun below others => .ok ?_
    rw [Forest.valid_iff, Forest.contents_ofArms]
    exact ⟨⟨same.imp fun _ _ _ => ⟨trivial, trivial⟩, others.1⟩, valid, below.valid_iff.mp others.2⟩

theorem Tree.decodeWithin_gives (depth : Nat) :
    ∀ (k : Kind) (j : Json), Gives Tree.Valid (Tree.decodeWithin depth k j) := by
  induction depth with
  | zero => exact fun k j => .error _
  | succ depth ih =>
    intro k j
    refine (Form.read_gives k j).bind fun node attributes => ?_
    refine (Forest.decode_gives ih node.1.slots node.2).bind fun below ⟨shape, others⟩ => ?_
    refine .checked fun passed => ?_
    have checked := (node.1.check_eq_of_shape shape).trans (Checked.decoded_ok.mp passed)
    exact And.intro attributes ⟨checked, others⟩

/-- The parts of nodes that have checks of their own are checked when they are decoded by themselves. -/
structure DecodedParts : Prop where
  identifier : Codec.Sound Identifier.Valid
  qualifiedName : Codec.Sound QualifiedName.Valid
  tableAlias : Codec.Sound TableAlias.Valid
  customOperator : Codec.Sound CustomOperator.Valid
  dollarString : Codec.Sound DollarString.Valid
  literal : Codec.Sound Literal.Valid
  param : Codec.Sound Param.Valid
  locking : Codec.Sound Locking.Valid

theorem decodedParts : DecodedParts where
  identifier := Identifier.decode_sound
  qualifiedName := QualifiedName.decode_sound
  tableAlias := TableAlias.decode_sound
  customOperator := CustomOperator.decode_sound
  dollarString := DollarString.decode_sound
  literal := Literal.decode_sound
  param := Param.decode_sound
  locking := Locking.decode_sound

/-- Every tree that is decoded is valid. -/
theorem Tree.ofJson_gives (k : Kind) (j : Json) : Gives Tree.Valid (Tree.ofJson k j) :=
  Tree.decodeWithin_gives (j.depth + 1) k j

end SqlTree

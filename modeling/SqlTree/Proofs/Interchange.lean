import SqlTree.Proofs.NodeCodec
import SqlTree.Codec.Part
import SqlTree.Proofs.Drawn

namespace SqlTree

open Codec

/-- The scalars of a form are in range. -/
def Form.InRange : {k : Kind} → Form k → Prop
  | _, .literal value => value.InRange
  | _, .param p => ∀ value ∈ p.value, value.InRange
  | _, _ => True

mutual

/-- All scalars of a tree are in range. -/
def Tree.InRange : {k : Kind} → Tree k → Prop
  | _, .node form below => form.InRange ∧ below.InRange

def Forest.InRange : {slots : List Slot} → Forest slots → Prop
  | _, .nil => True
  | _, .one t rest => t.InRange ∧ rest.InRange
  | _, .absent rest => rest.InRange
  | _, .present t rest => t.InRange ∧ rest.InRange
  | _, .done rest => rest.InRange
  | _, .more t rest => t.InRange ∧ rest.InRange
  | _, .noArm rest => rest.InRange
  | _, .arm c t rest => c.InRange ∧ t.InRange ∧ rest.InRange

end

/-- The interchange forms of the nodes of a forest. -/
def Forest.toSources {slots : List Slot} (f : Forest slots) : Sources slots :=
  Fill.map (fun part => part.value) slots
    (f.para fun form parts => form.write (Fill.map (fun part => part.value) form.slots parts))

theorem Tree.toJson_node {k : Kind} (form : Form k) (below : Forest form.slots) :
    (Tree.node form below).toJson = form.write below.toSources :=
  rfl

theorem Tree.toJson_solid {k : Kind} (t : Tree k) : t.toJson.isNull = false := by
  cases t with
  | node form below =>
    rw [Tree.toJson_node]
    exact form.write_solid _

namespace Forest

theorem toSources_shape {slots : List Slot} (f : Forest slots) :
    Fill.SameShape slots f.toSources f.contents := by
  cases f with
  | nil => exact trivial
  | one _ rest => exact ⟨trivial, rest.toSources_shape⟩
  | absent rest => exact ⟨.none, rest.toSources_shape⟩
  | present _ rest => exact ⟨.some trivial, rest.toSources_shape⟩
  | done rest => exact ⟨.nil, rest.toSources_shape⟩
  | more _ rest => exact ⟨.cons trivial rest.toSources_shape.1, rest.toSources_shape.2⟩
  | noArm rest => exact ⟨.nil, rest.toSources_shape⟩
  | arm _ _ rest => exact ⟨.cons ⟨trivial, trivial⟩ rest.toSources_shape.1, rest.toSources_shape.2⟩

theorem toSources_solid {slots : List Slot} (f : Forest slots) :
    Fill.All (fun j => j.isNull = false) slots f.toSources := by
  cases f with
  | nil => exact trivial
  | one t rest => exact ⟨t.toJson_solid, rest.toSources_solid⟩
  | absent rest => exact ⟨nofun, rest.toSources_solid⟩
  | present t rest => exact ⟨by rintro _ ⟨⟩; exact t.toJson_solid, rest.toSources_solid⟩
  | done rest => exact ⟨nofun, rest.toSources_solid⟩
  | more t rest =>
    exact ⟨List.forall_mem_cons.mpr ⟨t.toJson_solid, rest.toSources_solid.1⟩, rest.toSources_solid.2⟩
  | noArm rest => exact ⟨nofun, rest.toSources_solid⟩
  | arm c t rest =>
    exact ⟨List.forall_mem_cons.mpr ⟨⟨c.toJson_solid, t.toJson_solid⟩, rest.toSources_solid.1⟩,
      rest.toSources_solid.2⟩

section

variable (node : (k : Kind) → Json → Decoded (Tree k)) {slots : List Slot}

theorem decode_more {k : Kind} (j : Json) (js : List Json) (rest : Sources slots) :
    Forest.decode node (.many k :: slots) (j :: js, rest) =
      (node k j >>= fun t => Forest.decode node (.many k :: slots) (js, rest) >>= fun f => .ok (.more t f)) := by
  change ((j :: js).mapM (node k) >>= fun ts => Forest.decode node slots rest >>= fun r =>
    Except.ok (Forest.ofList ts r)) = _ >>= fun t => (js.mapM (node k) >>= fun ts =>
      Forest.decode node slots rest >>= fun r => Except.ok (Forest.ofList ts r)) >>= fun f => .ok (.more t f)
  rw [List.mapM_cons]
  cases node k j with
  | error => rfl
  | ok t =>
    cases js.mapM (node k) with
    | error => rfl
    | ok ts => cases Forest.decode node slots rest <;> rfl

theorem decode_arm (arm : Json × Json) (arms : List (Json × Json)) (rest : Sources slots) :
    Forest.decode node (.arms :: slots) (arm :: arms, rest) =
      (node .expr arm.1 >>= fun c => node .expr arm.2 >>= fun t =>
        Forest.decode node (.arms :: slots) (arms, rest) >>= fun f => .ok (.arm c t f)) := by
  let decodeArm : Json × Json → Decoded (Tree .expr × Tree .expr) := fun j =>
    node .expr j.1 >>= fun c => node .expr j.2 >>= fun t => .ok (c, t)
  change ((arm :: arms).mapM decodeArm >>= fun arms => Forest.decode node slots rest >>= fun r =>
    Except.ok (Forest.ofArms arms r)) = _ >>= fun c => _ >>= fun t => (arms.mapM decodeArm >>= fun arms =>
      Forest.decode node slots rest >>= fun r => Except.ok (Forest.ofArms arms r)) >>= fun f => .ok (.arm c t f)
  rw [List.mapM_cons]
  change ((node .expr arm.1 >>= fun c => node .expr arm.2 >>= fun t => Except.ok (c, t)) >>= _) >>= _ = _
  cases node .expr arm.1 with
  | error => rfl
  | ok c =>
    cases node .expr arm.2 with
    | error => rfl
    | ok t =>
      cases arms.mapM decodeArm with
      | error => rfl
      | ok ts => cases Forest.decode node slots rest <;> rfl

end

end Forest

/-- A node is decoded when its form is read, what is below it is decoded, and its check passes. -/
theorem Tree.decodeWithin_node {depth : Nat} {k : Kind} {j : Json} {form : Form k}
    {sources : Sources form.slots} {below : Forest form.slots} (read : Form.read k j = .ok ⟨form, sources⟩)
    (decoded : Forest.decode (Tree.decodeWithin depth) form.slots sources = .ok below)
    (checked : form.check sources = .ok ()) :
    Tree.decodeWithin (depth + 1) k j = .ok (.node form below) := by
  rw [Tree.decodeWithin, read]
  change (Forest.decode _ form.slots sources >>= fun below =>
    (form.check sources).decoded >>= fun _ => Except.ok (Tree.node form below)) = _
  rw [decoded, checked]
  rfl

/-- A form that holds no scalars equals itself. -/
theorem Form.beq_self {k : Kind} (form : Form k) (plain : k.isScalar = false) : (form == form) = true := by
  have both {a b : Bool} (left : a = true) (right : b = true) : (a && b) = true :=
    Bool.and_eq_true_iff.mpr ⟨left, right⟩
  cases form with
  | literal | param => cases plain
  | expr a | column a | arithmetic a | customBinary a | customUnary a | collate a | predicate a
  | comparison a | between a | like a | isNull a | isDistinctFrom a | membership a | existence a
  | connective a | valueSet a | tableRef a | namedTable a | subqueryTable a | valuesTable a
  | functionTable a | join a | onJoin a | query a | composite a | withQuery a | aliased a
  | qualifiedStar a | limitOffset a | locking a | windowDef a | windowSpec a | overName a | frameFrom a
  | frameBetween a | boundAt a | boundOffset a => exact (beq_self_eq_true a :)
  | call a b | callStar a b | quantified a b | usingJoin a b | orderItem a b =>
    exact both (beq_self_eq_true a) (beq_self_eq_true b)
  | typeName a b c | cte a b c =>
    exact both (both (beq_self_eq_true a) (beq_self_eq_true b)) (beq_self_eq_true c)
  | _ => rfl

/-- Nodes of one form are equal when what is below them is. -/
theorem Tree.beq_node {k : Kind} (form : Form k) (plain : k.isScalar = false) {below others : Forest form.slots}
    (same : below.beq others = true) : (Tree.node form below).beq (.node form others) = true := by
  rw [Tree.beq, dif_pos rfl, form.beq_self plain, Bool.true_and]
  exact same

theorem Tree.beq_literal {a b : Literal} (same : (a == b) = true) :
    (Tree.literal a).beq (Tree.literal b) = true := by
  change (Tree.node (.literal a) .nil).beq (.node (.literal b) .nil) = true
  rw [Tree.beq, dif_pos rfl]
  change (a == b && true) = true
  rw [same]
  rfl

theorem Tree.beq_param {p q : Param} (same : (p == q) = true) : (Tree.param p).beq (Tree.param q) = true := by
  change (Tree.node (.param p) .nil).beq (.node (.param q) .nil) = true
  rw [Tree.beq, dif_pos rfl]
  change (p == q && true) = true
  rw [same]
  rfl

/-- Decoding a tree gives an equal one. -/
def Tree.Restored {k : Kind} (depth : Nat) (t : Tree k) : Prop :=
  ∃ u, Tree.decodeWithin depth k t.toJson = .ok u ∧ u.beq t = true

def Forest.Restored {slots : List Slot} (depth : Nat) (f : Forest slots) : Prop :=
  ∃ g, Forest.decode (Tree.decodeWithin depth) slots f.toSources = .ok g ∧ g.beq f = true

theorem Tree.restored_literal {value : Literal} (valid : value.Valid) (range : value.InRange) (depth : Nat) :
    (Tree.literal value).Restored (depth + 1) := by
  have read : Form.read .literal (encode value) = .ok ⟨.literal value.settled, ()⟩ :=
    bind_ok (valid.decode_encode range) fun value => Form.found (.literal value) ()
  exact ⟨.literal value.settled, Tree.decodeWithin_node read rfl rfl, Tree.beq_literal value.settled_beq⟩

theorem Tree.restored_param {p : Param} (valid : p.Valid) (range : ∀ value ∈ p.value, value.InRange)
    (depth : Nat) : (Tree.param p).Restored (depth + 1) := by
  have read : Form.read .param (encode p) = .ok ⟨.param p.settled, ()⟩ :=
    bind_ok (valid.decode_encode range) fun p => Form.found (.param p) ()
  exact ⟨.param p.settled, Tree.decodeWithin_node read rfl rfl, Tree.beq_param p.settled_beq⟩

mutual

/-- A tree is decoded from its interchange form as an equal one, if the depth that is allowed is greater
than that of the form. -/
theorem Tree.Valid.restored : {k : Kind} → {t : Tree k} → t.Valid → t.InRange → {depth : Nat} →
    t.toJson.depth < depth → t.Restored depth
  | _, _, _, _, 0, deep => absurd deep (Nat.not_lt_zero _)
  | k, .node form below, valid, range, depth + 1, deep => by
    -- forms with scalars come back as equal ones only, all others as they are
    by_cases scalar : k.isScalar = true
    · cases form
      case literal => cases below; exact Tree.restored_literal valid.1 range.1 depth
      case param => cases below; exact Tree.restored_param valid.1 range.1 depth
      all_goals cases scalar
    · have plain : k.isScalar = false := by simpa using scalar
      have read := form.read_write valid.1 plain below.toSources
      rw [Sources.reread_eq below.toSources_solid] at read
      have shallow : Fill.All (fun j => j.depth < depth) form.slots below.toSources :=
        Fill.All.imp (fun inside => inside.trans_le (Nat.le_of_lt_succ deep)) (form.depth_write _)
      obtain ⟨others, decoded, same⟩ := Forest.Valid.restored valid.2.2 range.2 shallow
      have checked := (form.check_eq_of_shape below.toSources_shape).trans valid.2.1
      exact ⟨.node form others, Tree.decodeWithin_node read decoded checked, Tree.beq_node form plain same⟩

theorem Forest.Valid.restored : {slots : List Slot} → {f : Forest slots} → f.Valid → f.InRange →
    {depth : Nat} → Fill.All (fun j => j.depth < depth) slots f.toSources → f.Restored depth
  | _, .nil, _, _, _, _ => ⟨.nil, rfl, rfl⟩
  | _, .one _ _, valid, range, _, deep => by
    obtain ⟨t, atTree, same⟩ := Tree.Valid.restored valid.1 range.1 deep.1
    obtain ⟨rest, atRest, same'⟩ := Forest.Valid.restored valid.2 range.2 deep.2
    refine ⟨.one t rest, bind_ok₂ atTree atRest fun t rest => .ok (Forest.one t rest), ?_⟩
    exact Bool.and_eq_true_iff.mpr ⟨same, same'⟩
  | _, .absent rest, valid, range, _, deep => by
    obtain ⟨rest, atRest, same⟩ := Forest.Valid.restored (f := rest) valid range deep.2
    exact ⟨.absent rest, bind_ok atRest fun rest => .ok (Forest.absent rest), same⟩
  | _, .present _ _, valid, range, _, deep => by
    obtain ⟨t, atTree, same⟩ := Tree.Valid.restored valid.1 range.1 (deep.1 _ rfl)
    obtain ⟨rest, atRest, same'⟩ := Forest.Valid.restored valid.2 range.2 deep.2
    refine ⟨.present t rest, bind_ok₂ atTree atRest fun t rest => .ok (Forest.present t rest), ?_⟩
    exact Bool.and_eq_true_iff.mpr ⟨same, same'⟩
  | _, .done rest, valid, range, _, deep => by
    obtain ⟨rest, atRest, same⟩ := Forest.Valid.restored (f := rest) valid range deep.2
    exact ⟨.done rest, bind_ok atRest fun rest => .ok (Forest.done rest), same⟩
  | _, .more _ rest, valid, range, _, deep => by
    obtain ⟨first, others⟩ := List.forall_mem_cons.mp deep.1
    obtain ⟨t, atTree, same⟩ := Tree.Valid.restored valid.1 range.1 first
    obtain ⟨rest, atRest, same'⟩ := Forest.Valid.restored (f := rest) valid.2 range.2 ⟨others, deep.2⟩
    refine ⟨.more t rest,
      (Forest.decode_more ..).trans (bind_ok₂ atTree atRest fun t rest => .ok (Forest.more t rest)), ?_⟩
    exact Bool.and_eq_true_iff.mpr ⟨same, same'⟩
  | _, .noArm rest, valid, range, _, deep => by
    obtain ⟨rest, atRest, same⟩ := Forest.Valid.restored (f := rest) valid range deep.2
    exact ⟨.noArm rest, bind_ok atRest fun rest => .ok (Forest.noArm rest), same⟩
  | _, .arm _ _ rest, valid, range, _, deep => by
    obtain ⟨first, others⟩ := List.forall_mem_cons.mp deep.1
    obtain ⟨c, atCond, same⟩ := Tree.Valid.restored valid.1 range.1 first.1
    obtain ⟨t, atTree, same'⟩ := Tree.Valid.restored valid.2.1 range.2.1 first.2
    obtain ⟨rest, atRest, same''⟩ := Forest.Valid.restored (f := rest) valid.2.2 range.2.2 ⟨others, deep.2⟩
    refine ⟨.arm c t rest,
      (Forest.decode_arm ..).trans (bind_ok₃ atCond atTree atRest fun c t rest => .ok (Forest.arm c t rest)), ?_⟩
    exact Bool.and_eq_true_iff.mpr ⟨Bool.and_eq_true_iff.mpr ⟨same, same'⟩, same''⟩

end

theorem Tree.toJson_literal_distinct {a b : Literal} (valid : a.Valid ∧ b.Valid)
    (range : a.InRange ∧ b.InRange) (same : encode a = encode b) :
    (Tree.literal a).beq (Tree.literal b) = true := by
  have decoded := eq_of_read (valid.1.decode_encode range.1) (valid.2.decode_encode range.2) same
  exact Tree.beq_literal (Literal.beq_of_settled decoded)

theorem Tree.toJson_param_distinct {p q : Param} (valid : p.Valid ∧ q.Valid)
    (range : (∀ value ∈ p.value, value.InRange) ∧ ∀ value ∈ q.value, value.InRange)
    (same : encode p = encode q) : (Tree.param p).beq (Tree.param q) = true := by
  have decoded := eq_of_read (valid.1.decode_encode range.1) (valid.2.decode_encode range.2) same
  exact Tree.beq_param (Param.beq_of_settled decoded)

mutual

/-- Trees with the same interchange form are equal. -/
theorem Tree.Valid.beq_of_toJson : {k : Kind} → {t u : Tree k} → t.Valid ∧ u.Valid → t.InRange ∧ u.InRange →
    t.toJson = u.toJson → t.beq u = true
  | k, .node form below, .node form' others, valid, range, same => by
    by_cases scalar : k.isScalar = true
    · cases form
      case literal =>
        cases form'
        cases below
        cases others
        exact Tree.toJson_literal_distinct ⟨valid.1.1, valid.2.1⟩ ⟨range.1.1, range.2.1⟩ same
      case param =>
        cases form'
        cases below
        cases others
        exact Tree.toJson_param_distinct ⟨valid.1.1, valid.2.1⟩ ⟨range.1.1, range.2.1⟩ same
      all_goals cases scalar
    · have plain : k.isScalar = false := by simpa using scalar
      have read := form.read_write valid.1.1 plain below.toSources
      have read' := form'.read_write valid.2.1 plain others.toSources
      rw [Sources.reread_eq (Forest.toSources_solid _)] at read read'
      obtain ⟨rfl, sources⟩ := Sigma.mk.inj (eq_of_read read read' same)
      exact Tree.beq_node form plain (Forest.Valid.beq_of_toSources ⟨valid.1.2.2, valid.2.2.2⟩
        ⟨range.1.2, range.2.2⟩ (eq_of_heq sources))

theorem Forest.Valid.beq_of_toSources : {slots : List Slot} → {f g : Forest slots} → f.Valid ∧ g.Valid →
    f.InRange ∧ g.InRange → f.toSources = g.toSources → f.beq g = true
  | _, .nil, .nil, _, _, _ => rfl
  | _, .one _ _, .one _ _, valid, range, same => by
    obtain ⟨first, rest⟩ := Prod.mk.inj same
    exact Bool.and_eq_true_iff.mpr
      ⟨Tree.Valid.beq_of_toJson ⟨valid.1.1, valid.2.1⟩ ⟨range.1.1, range.2.1⟩ first,
        Forest.Valid.beq_of_toSources ⟨valid.1.2, valid.2.2⟩ ⟨range.1.2, range.2.2⟩ rest⟩
  | _, .absent rest, .absent others, valid, range, same =>
    Forest.Valid.beq_of_toSources (f := rest) (g := others) valid range (Prod.mk.inj same).2
  | _, .absent _, .present _ _, _, _, same => nomatch (Prod.mk.inj same).1
  | _, .present _ _, .absent _, _, _, same => nomatch (Prod.mk.inj same).1
  | _, .present _ _, .present _ _, valid, range, same => by
    obtain ⟨first, rest⟩ := Prod.mk.inj same
    exact Bool.and_eq_true_iff.mpr
      ⟨Tree.Valid.beq_of_toJson ⟨valid.1.1, valid.2.1⟩ ⟨range.1.1, range.2.1⟩ (Option.some.inj first),
        Forest.Valid.beq_of_toSources ⟨valid.1.2, valid.2.2⟩ ⟨range.1.2, range.2.2⟩ rest⟩
  | _, .done rest, .done others, valid, range, same =>
    Forest.Valid.beq_of_toSources (f := rest) (g := others) valid range (Prod.mk.inj same).2
  | _, .done _, .more _ _, _, _, same => nomatch (Prod.mk.inj same).1
  | _, .more _ _, .done _, _, _, same => nomatch (Prod.mk.inj same).1
  | _, .more _ rest, .more _ others, valid, range, same => by
    obtain ⟨items, after⟩ := Prod.mk.inj same
    obtain ⟨first, later⟩ := List.cons.inj items
    exact Bool.and_eq_true_iff.mpr
      ⟨Tree.Valid.beq_of_toJson ⟨valid.1.1, valid.2.1⟩ ⟨range.1.1, range.2.1⟩ first,
        Forest.Valid.beq_of_toSources (f := rest) (g := others) ⟨valid.1.2, valid.2.2⟩
          ⟨range.1.2, range.2.2⟩ (Prod.ext later after)⟩
  | _, .noArm rest, .noArm others, valid, range, same =>
    Forest.Valid.beq_of_toSources (f := rest) (g := others) valid range (Prod.mk.inj same).2
  | _, .noArm _, .arm _ _ _, _, _, same => nomatch (Prod.mk.inj same).1
  | _, .arm _ _ _, .noArm _, _, _, same => nomatch (Prod.mk.inj same).1
  | _, .arm _ _ rest, .arm _ _ others, valid, range, same => by
    obtain ⟨arms, after⟩ := Prod.mk.inj same
    obtain ⟨first, later⟩ := List.cons.inj arms
    obtain ⟨cond, result⟩ := Prod.mk.inj first
    exact Bool.and_eq_true_iff.mpr ⟨Bool.and_eq_true_iff.mpr
      ⟨Tree.Valid.beq_of_toJson ⟨valid.1.1, valid.2.1⟩ ⟨range.1.1, range.2.1⟩ cond,
        Tree.Valid.beq_of_toJson ⟨valid.1.2.1, valid.2.2.1⟩ ⟨range.1.2.1, range.2.2.1⟩ result⟩,
        Forest.Valid.beq_of_toSources (f := rest) (g := others) ⟨valid.1.2.2, valid.2.2.2⟩
          ⟨range.1.2.2, range.2.2.2⟩ (Prod.ext later after)⟩

end

end SqlTree

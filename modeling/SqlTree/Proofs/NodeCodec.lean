import SqlTree.Codec.Tree
import SqlTree.Proofs.KeptValues

namespace SqlTree

open Codec

/-- What is read at the places of a node where contents have been written: a null is nothing. -/
def Sources.reread : (slots : List Slot) → Sources slots → Sources slots
  | [], _ => ()
  | .one _ :: slots, (j, rest) => (j, reread slots rest)
  | .opt _ :: slots, (j, rest) => ((some (nullable j)).filter fun j => !j.isNull, reread slots rest)
  | .many _ :: slots, (js, rest) => (js, reread slots rest)
  | .arms :: slots, (arms, rest) => (arms, reread slots rest)

theorem Sources.reread_eq : {slots : List Slot} → {parts : Sources slots} →
    Fill.All (fun j => j.isNull = false) slots parts → reread slots parts = parts
  | [], _, _ => rfl
  | .one _ :: _, (_, _), solid => congrArg (Prod.mk _) (reread_eq solid.2)
  | .opt _ :: _, (none, _), solid => congrArg (Prod.mk _) (reread_eq solid.2)
  | .opt _ :: _, (some j, _), solid => by
    have there : (some j).filter (fun j => !j.isNull) = some j := by simp [solid.1 j rfl]
    exact congrArg₂ Prod.mk there (reread_eq solid.2)
  | .many _ :: _, (_, _), solid => congrArg (Prod.mk _) (reread_eq solid.2)
  | .arms :: _, (_, _), solid => congrArg (Prod.mk _) (reread_eq solid.2)

/-- A form with contents, as a reading gives it. -/
def Form.found {k : Kind} (form : Form k) (parts : Sources form.slots) :
    Decoded ((form : Form k) × Sources form.slots) :=
  .ok ⟨form, parts⟩

/-- Nodes that hold scalars. -/
def Kind.isScalar : Kind → Bool
  | .literal | .param => true
  | _ => false

theorem Codec.union_tagged {α : Type} [Enumerated α] [Enumerated.Complete α] (variant : α) (payload : Json) :
    union (tagged (Enumerated.tag variant) payload) = .ok (variant, payload) :=
  map_ok (kept_enumerated variant) fun variant => (variant, payload)

theorem Codec.readArms_writeArms (arms : List (Json × Json)) :
    ((arms.map fun arm => Json.object [("when", arm.1), ("then", arm.2)]).mapM fun arm => do
      let fs ← fields arm
      return (← child fs "when", ← child fs "then") : Decoded (List (Json × Json))) = .ok arms := by
  induction arms with
  | nil => rfl
  | cons arm rest ih =>
    rw [List.map_cons, List.mapM_cons, ih]
    rfl

/-- Form and contents of a node are read from what has been written of them. -/
theorem Form.read_write {k : Kind} (form : Form k) (valid : form.Valid) (plain : k.isScalar = false)
    (parts : Sources form.slots) :
    Form.read k (form.write parts) = .ok ⟨form, Sources.reread form.slots parts⟩ := by
  cases form with
  | literal | param => cases plain
  | expr v => exact bind_ok (union_tagged v parts.1) fun read => found (.expr read.1) (read.2, ())
  | column c => exact bind_ok (ColumnRef.Valid.kept valid) fun c => found (.column c) ()
  | call name unique =>
    exact bind_ok (QualifiedName.Valid.kept valid) fun name =>
      found (.call name unique) (Sources.reread (Form.call name unique).slots parts)
  | callStar name unique =>
    exact bind_ok (QualifiedName.Valid.kept valid) fun name =>
      found (.callStar name unique) (Sources.reread (Form.callStar name unique).slots parts)
  | case =>
    obtain ⟨subject, arms, otherwise, _⟩ := parts
    exact bind_ok (readArms_writeArms arms) fun arms =>
      found .case (Sources.reread Form.case.slots (subject, arms, otherwise, ()))
  | arithmetic op => exact bind_ok (kept_enumerated op) fun op => found (.arithmetic op) parts
  | customBinary op => exact bind_ok (CustomOperator.Valid.kept valid) fun op => found (.customBinary op) parts
  | customUnary op => exact bind_ok (CustomOperator.Valid.kept valid) fun op => found (.customUnary op) parts
  | typeName base dims zone =>
    have kept : Kept base := TypeBase.kept fun name named => by subst named; exact valid
    exact bind_ok₃ kept (kept_uint32 dims) (kept_enumerated zone) fun base dims zone =>
      found (.typeName base dims zone) parts
  | collate collation =>
    exact bind_ok (QualifiedName.Valid.kept valid) fun collation => found (.collate collation) parts
  | predicate v => exact bind_ok (union_tagged v parts.1) fun read => found (.predicate read.1) (read.2, ())
  | comparison op => exact bind_ok (kept_enumerated op) fun op => found (.comparison op) parts
  | quantified op quantifier =>
    exact bind_ok₂ (kept_enumerated op) (kept_enumerated quantifier) fun op quantifier =>
      found (.quantified op quantifier) parts
  | connective op => exact bind_ok (kept_enumerated op) fun op => found (.connective op) parts
  | valueSet v => exact bind_ok (union_tagged v parts.1) fun read => found (.valueSet read.1) (read.2, ())
  | tableRef v => exact bind_ok (union_tagged v parts.1) fun read => found (.tableRef read.1) (read.2, ())
  | namedTable t => exact bind_ok (NamedTable.Valid.kept valid) fun t => found (.namedTable t) ()
  | subqueryTable correlation =>
    exact bind_ok (TableAlias.readField_alias valid) fun correlation => found (.subqueryTable correlation) parts
  | valuesTable correlation =>
    exact bind_ok (TableAlias.readField_alias valid) fun correlation => found (.valuesTable correlation) parts
  | functionTable correlation =>
    exact bind_ok (TableAlias.readField_alias valid) fun correlation => found (.functionTable correlation) parts
  | join v => exact bind_ok (union_tagged v parts.1) fun read => found (.join read.1) (read.2, ())
  | usingJoin kind columns =>
    exact bind_ok₂ (kept_enumerated kind) (Identifier.kept_all valid) fun kind columns =>
      found (.usingJoin kind columns) parts
  | onJoin kind => exact bind_ok (kept_enumerated kind) fun kind => found (.onJoin kind) parts
  | query v => exact bind_ok (union_tagged v parts.1) fun read => found (.query read.1) (read.2, ())
  | composite ops =>
    have kept : Kept ops := kept_list fun op _ => kept_enumerated op
    exact bind_ok kept fun ops =>
      found (.composite ops) (Sources.reread (Form.composite ops).slots parts)
  | cte name columns materialization =>
    exact bind_ok₃ valid.1.kept (Identifier.kept_all valid.2) (kept_enumerated materialization)
      fun name columns materialization => found (.cte name columns materialization)
        (Sources.reread (Form.cte name columns materialization).slots parts)
  | aliased name => exact bind_ok (Identifier.readField_alias valid) fun name => found (.aliased name) parts
  | qualifiedStar name => exact bind_ok (QualifiedName.Valid.kept valid) fun name => found (.qualifiedStar name) ()
  | orderItem direction nulls =>
    exact bind_ok₂ (Enumerated.readField_member direction) (Enumerated.readField_member nulls)
      fun direction nulls => found (.orderItem direction nulls) parts
  | limitOffset w => exact bind_ok w.kept fun w => found (.limitOffset w) ()
  | locking l => exact bind_ok (Locking.Valid.kept valid) fun l => found (.locking l) ()
  | windowDef name => exact bind_ok (Identifier.Valid.kept valid) fun name => found (.windowDef name) parts
  | windowSpec exclude =>
    exact bind_ok (Enumerated.readField_member exclude) fun exclude =>
      found (.windowSpec exclude) (Sources.reread (Form.windowSpec exclude).slots parts)
  | overName name => exact bind_ok (Identifier.Valid.kept valid) fun name => found (.overName name) ()
  | frameFrom unit => exact bind_ok (kept_enumerated unit) fun unit => found (.frameFrom unit) parts
  | frameBetween unit => exact bind_ok (kept_enumerated unit) fun unit => found (.frameBetween unit) parts
  | boundAt edge => cases edge <;> rfl
  | boundOffset side => cases side <;> rfl
  | _ => rfl

/-- Nothing is written as null. -/
theorem Form.write_solid {k : Kind} (form : Form k) (parts : Sources form.slots) :
    (form.write parts).isNull = false := by
  cases form with
  | literal value => exact value.solid
  | _ => rfl

namespace Json

theorem depth_field (name : String) {fs : List (String × Json)} {j : Json} (found : field? name fs = some j) :
    j.depth < (Json.object fs).depth := by
  refine Nat.lt_succ_of_le ?_
  induction fs with
  | nil => cases found
  | cons first rest ih =>
    obtain ⟨key, value⟩ := first
    unfold field? at found
    split at found
    · cases found
      exact Nat.le_max_left ..
    · exact (ih found).trans (Nat.le_max_right ..)

theorem depth_item {items : List Json} {j : Json} (member : j ∈ items) :
    j.depth < (Json.array items).depth := by
  refine Nat.lt_succ_of_le ?_
  induction items with
  | nil => cases member
  | cons first rest ih =>
    rcases List.mem_cons.mp member with rfl | later
    · exact Nat.le_max_left ..
    · exact (ih later).trans (Nat.le_max_right ..)

theorem depth_tagged (name : String) (j : Json) : j.depth < (tagged name j).depth :=
  depth_field name (if_pos rfl)

section

variable (name : String) {fs : List (String × Json)}

theorem depth_nullable {o : Option Json} (found : field? name fs = some (nullable o)) :
    ∀ j ∈ o, j.depth < (Json.object fs).depth := by
  rintro j rfl
  exact depth_field name found

theorem depth_items {items : List Json} (found : field? name fs = some (.array items)) :
    ∀ j ∈ items, j.depth < (Json.object fs).depth :=
  fun _ member => (depth_item member).trans (depth_field name found)

theorem depth_arms {arms : List (Json × Json)} (found : field? name fs = some (writeArms arms)) :
    ∀ arm ∈ arms, arm.1.depth < (Json.object fs).depth ∧ arm.2.depth < (Json.object fs).depth := by
  intro arm member
  have inside := (depth_item (List.mem_map.mpr ⟨arm, member, rfl⟩)).trans (depth_field name found)
  exact ⟨(depth_field "when" rfl).trans inside, (depth_field "then" rfl).trans inside⟩

end

end Json

open Json in
/-- The contents of a node are nested less deep than the node. -/
theorem Form.depth_write {k : Kind} (form : Form k) (parts : Sources form.slots) :
    Fill.All (fun j => j.depth < (form.write parts).depth) form.slots parts := by
  cases form with
  | expr v => exact ⟨depth_tagged (Enumerated.tag v) _, trivial⟩
  | predicate v => exact ⟨depth_tagged (Enumerated.tag v) _, trivial⟩
  | valueSet v => exact ⟨depth_tagged (Enumerated.tag v) _, trivial⟩
  | tableRef v => exact ⟨depth_tagged (Enumerated.tag v) _, trivial⟩
  | join v => exact ⟨depth_tagged (Enumerated.tag v) _, trivial⟩
  | query v => exact ⟨depth_tagged (Enumerated.tag v) _, trivial⟩
  | boundOffset side => exact ⟨depth_tagged (Enumerated.tag side) _, trivial⟩
  | overSpec => exact ⟨depth_tagged "Def" _, trivial⟩
  | call =>
    refine ⟨fun j member => ?_, depth_nullable "within_group" rfl, depth_nullable "filter" rfl,
      depth_nullable "over" rfl, trivial⟩
    exact (depth_item member).trans ((depth_tagged "List" _).trans (depth_field "args" rfl))
  | callStar =>
    exact ⟨depth_nullable "within_group" rfl, depth_nullable "filter" rfl, depth_nullable "over" rfl, trivial⟩
  | case =>
    exact ⟨depth_nullable "operand" rfl, depth_arms "whens" rfl, depth_nullable "else_result" rfl, trivial⟩
  | arithmetic | customBinary | comparison | connective | isDistinctFrom =>
    exact ⟨depth_field "lhs" rfl, depth_field "rhs" rfl, trivial⟩
  | negate | customUnary => exact ⟨depth_field "operand" rfl, trivial⟩
  | cast => exact ⟨depth_field "expr" rfl, depth_field "type_name" rfl, trivial⟩
  | typeName => exact ⟨depth_items "modifiers" rfl, trivial⟩
  | array | row | groupBy | orderBy => exact ⟨depth_items "items" rfl, trivial⟩
  | rowList => exact ⟨depth_items "rows" rfl, trivial⟩
  | subquery | existence | subqueryTable => exact ⟨depth_field "query" rfl, trivial⟩
  | collate | isNull | condition | orderItem => exact ⟨depth_field "expr" rfl, trivial⟩
  | atTimeZone => exact ⟨depth_field "expr" rfl, depth_field "zone" rfl, trivial⟩
  | between => exact ⟨depth_field "expr" rfl, depth_field "low" rfl, depth_field "high" rfl, trivial⟩
  | like => exact ⟨depth_field "expr" rfl, depth_field "pattern" rfl, depth_nullable "escape" rfl, trivial⟩
  | membership => exact ⟨depth_field "expr" rfl, depth_field "values" rfl, trivial⟩
  | quantified => exact ⟨depth_field "lhs" rfl, depth_field "query" rfl, trivial⟩
  | negation | lateralTable => exact ⟨depth_field "inner" rfl, trivial⟩
  | valuesTable => exact ⟨depth_field "rows" rfl, trivial⟩
  | functionTable => exact ⟨depth_field "function" rfl, trivial⟩
  | crossJoin | naturalJoin | usingJoin => exact ⟨depth_field "table" rfl, trivial⟩
  | onJoin => exact ⟨depth_field "table" rfl, depth_field "on" rfl, trivial⟩
  | select =>
    exact ⟨depth_nullable "distinct" rfl, depth_items "items" rfl, depth_nullable "from" rfl,
      depth_items "joins" rfl, depth_nullable "where_clause" rfl, depth_nullable "group_by" rfl,
      depth_nullable "having" rfl, depth_items "windows" rfl, depth_nullable "order_by" rfl,
      depth_nullable "limit_offset" rfl, depth_nullable "locking" rfl, trivial⟩
  | composite =>
    exact ⟨depth_items "terms" rfl, depth_nullable "order_by" rfl, depth_nullable "limit_offset" rfl, trivial⟩
  | withQuery => exact ⟨depth_items "ctes" rfl, depth_field "body" rfl, trivial⟩
  | cte => exact ⟨depth_nullable "body" rfl, trivial⟩
  | aliased => exact ⟨(depth_field "expr" rfl).trans (depth_tagged "Expr" _), trivial⟩
  | distinctOn => exact ⟨fun j member => (depth_item member).trans (depth_tagged "On" _), trivial⟩
  | windowDef => exact ⟨depth_field "spec" rfl, trivial⟩
  | windowSpec =>
    exact ⟨depth_nullable "partition_by" rfl, depth_nullable "order_by" rfl, depth_nullable "frame" rfl, trivial⟩
  | partitionBy => exact ⟨depth_items "exprs" rfl, trivial⟩
  | frameFrom => exact ⟨(depth_field "bound" rfl).trans (depth_tagged "Single" _), trivial⟩
  | frameBetween =>
    exact ⟨(depth_field "start" rfl).trans (depth_tagged "Between" _),
      (depth_field "end" rfl).trans (depth_tagged "Between" _), trivial⟩
  | literal | column | param | namedTable | star | qualifiedStar | distinct | limitOffset | locking
  | overName | boundAt => exact trivial

end SqlTree

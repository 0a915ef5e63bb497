import Mathlib.Data.Multiset.UnionInter
import Mathlib.Data.Multiset.Dedup
import SqlTree.Build.Select
import SqlTree.Proofs.EveryTerm
import SqlTree.Proofs.OperatorReading

/-!
What composed queries mean. A set operation on the left is extended by one more term, and its terms are
written without parentheses; a reader groups them by the strength of the operators. The rows are those of
the calls, one after another, unless INTERSECT is called on an open set operation with a weaker operator.
-/
namespace SqlTree

namespace SetOperator

/-- INTERSECT binds tighter than UNION and EXCEPT. -/
def strength : SetOperator → Nat
  | .intersect | .intersectAll => 2
  | _ => 1

/-- Rows are counted with ALL, and without it each is taken once. -/
def apply {ρ : Type} [DecidableEq ρ] : SetOperator → Multiset ρ → Multiset ρ → Multiset ρ
  | .union, a, b => (a + b).dedup
  | .unionAll, a, b => a + b
  | .intersect, a, b => (a ∩ b).dedup
  | .intersectAll, a, b => a ∩ b
  | .except, a, b => a.dedup - b.dedup
  | .exceptAll, a, b => a - b

/-- Set operators stand between terms only. -/
def precedence : Precedence SetOperator where
  leads _ := false
  strength := strength

end SetOperator

/-- Rows for SELECTs, what order and row window leave of the rows of a set operation, and what a WITH query
makes of those of its body. -/
structure Query.Meaning (ρ : Type) where
  select : Select → Multiset ρ
  tail : Option (Tree .orderBy) → Option (Tree .limitOffset) → Multiset ρ → Multiset ρ
  withQuery : Tree .withQuery → Multiset ρ → Multiset ρ
  tail_none : ∀ rows, tail none none rows = rows

section Rows

variable {ρ : Type} [DecidableEq ρ]

/-- The rows of terms with operators between them, read by the strength of the operators. -/
def SetOperator.rows (ops : List SetOperator) : List (Multiset ρ) → Multiset ρ
  | [] => 0
  | first :: rest =>
    let read := SetOperator.precedence.read (Item.alternating first (ops.zip rest))
    (read.map (Reading.value ⟨id, fun _ rows => rows, SetOperator.apply⟩)).getD 0

/-- The rows of a node, from those of the nodes below it. Only queries have rows. -/
def Query.Meaning.step (m : Query.Meaning ρ) :
    {k : Kind} → (form : Form k) → Fill (Part (Multiset ρ)) form.slots → Multiset ρ
  | _, .query .select, (s, _) => m.select s.tree
  | _, .query .composite, (c, _) => c.value
  | _, .query .withQuery, (q, _) => m.withQuery q.tree q.value
  | _, .composite ops, (terms, orderBy, limitOffset, _) =>
    m.tail (orderBy.map (·.tree)) (limitOffset.map (·.tree)) (SetOperator.rows ops (terms.map (·.value)))
  | _, .withQuery _, parts => parts.2.1.value
  | _, _, _ => 0

def Query.rows (m : Query.Meaning ρ) (q : Query) : Multiset ρ :=
  q.para m.step

/-- The rows of the terms of a set operation, before order and row window. -/
def Composite.rows (m : Query.Meaning ρ) (c : Composite) : Multiset ρ :=
  SetOperator.rows c.ops (c.terms.map (Query.rows m))

/-- The rows of a set operation are those that its terms and operators are read as. -/
theorem Query.rows_composite (m : Query.Meaning ρ) {q : Query} {c : Composite} (same : q.composite? = some c) :
    q.rows m = m.tail c.orderBy c.limitOffset (c.rows m) := by
  match q with
  | .of .composite (.node (.composite ops) below) =>
    cases same
    change m.step (.composite ops) (below.para m.step) = _
    rw [below.para_eq_map]
    change m.tail (Option.map _ (Option.map _ _)) (Option.map _ (Option.map _ _))
      (SetOperator.rows ops (List.map _ (List.map _ _))) = _
    rw [Option.map_map, Option.map_map, List.map_map]
    simp only [Function.comp_def, Option.map_id']
    rfl
  | .of .select _ => cases same
  | .of .withQuery _ => cases same

/-- A last operator that is no stronger than those before it is applied last. -/
theorem SetOperator.rows_snoc {ops : List SetOperator} {rest : List (Multiset ρ)}
    (paired : ops.length = rest.length) {op : SetOperator} (last : ∀ b ∈ ops, op.strength ≤ b.strength)
    (first added : Multiset ρ) :
    SetOperator.rows (ops ++ [op]) (first :: rest ++ [added]) =
      op.apply (SetOperator.rows ops (first :: rest)) added := by
  have joins : ∀ s : SetOperator, 0 < precedence.strength s := by
    intro s
    cases s <;> decide
  obtain ⟨t, reads⟩ := Precedence.alternating_reads joins first (ops.zip rest)
  have before : precedence.Reads (fun b => True ∧ op.strength ≤ b.strength)
      (Item.alternating first (ops.zip rest)) t := by
    refine reads.mono fun b member => ⟨trivial, last b ?_⟩
    rwa [List.map_fst_zip paired.le] at member
  have whole : precedence.Reads (fun _ => True)
      (Item.alternating first ((ops ++ [op]).zip (rest ++ [added]))) (.join op t (.operand added)) := by
    rw [List.zip_append paired, List.zip_cons_cons, List.zip_nil_left, Item.alternating_snoc]
    exact .join (joins op) trivial before (.operand added)
  simp only [SetOperator.rows, List.cons_append, reads.read, whole.read]
  rfl

/-- The operators of a set operation that another call extends. -/
def Query.openOps (q : Query) : List SetOperator :=
  match q.composite? with
  | some c => if c.isOpen then c.ops else []
  | none => []

theorem Query.composite?_ofComposite (c : Composite) : (Query.ofComposite c).composite? = some c :=
  congrArg some c.ofTree_toTree

theorem Query.openOps_composite {q : Query} {c : Composite} (same : q.composite? = some c) :
    q.openOps = if c.isOpen then c.ops else [] := by
  rw [Query.openOps, same]

/-- Another call is one more open operator. -/
theorem Query.openOps_compose (q r : Query) (op : SetOperator) : (q.compose op r).openOps = q.openOps ++ [op] := by
  have pair : (Query.ofComposite (.pair op q r)).openOps = [op] :=
    Query.openOps_composite (Query.composite?_ofComposite _)
  unfold Query.compose
  split
  · rename_i c same
    rw [Query.openOps_composite same]
    split
    · rename_i isOpen
      exact (Query.openOps_composite (Query.composite?_ofComposite _)).trans (if_pos isOpen)
    · exact pair
  · rename_i none
    rw [pair, Query.openOps, none]
    rfl

/-- An open set operation has the rows of its terms. -/
theorem Query.rows_open (m : Query.Meaning ρ) {q : Query} {c : Composite} (same : q.composite? = some c)
    (isOpen : c.isOpen = true) : q.rows m = c.rows m := by
  rw [Query.rows_composite m same]
  obtain ⟨terms, ops, _ | _, _ | _⟩ := c
  · exact m.tail_none _
  all_goals cases isOpen

/-- A call of an operator that is no stronger than the open ones applies it to the rows of both queries. -/
theorem Query.rows_compose (m : Query.Meaning ρ) {q : Query} (valid : q.Valid) {op : SetOperator}
    (last : ∀ b ∈ q.openOps, op.strength ≤ b.strength) (r : Query) :
    (q.compose op r).rows m = op.apply (q.rows m) (r.rows m) := by
  have pair : (Query.ofComposite (.pair op q r)).rows m = op.apply (q.rows m) (r.rows m) := by
    have paired : ([] : List SetOperator).length = ([] : List (Multiset ρ)).length := rfl
    rw [Query.rows_open m (Query.composite?_ofComposite _) rfl]
    exact SetOperator.rows_snoc paired nofun (q.rows m) (r.rows m)
  unfold Query.compose
  split
  · rename_i c same
    split
    · rename_i isOpen
      have paired := (Query.composite_valid valid same).paired
      have atOps : ∀ b ∈ c.ops, op.strength ≤ b.strength := by
        rw [Query.openOps_composite same, if_pos isOpen] at last
        exact last
      rw [Query.rows_open m (Query.composite?_ofComposite (c.append op r)) isOpen, Query.rows_open m same isOpen]
      obtain ⟨_ | ⟨first, rest⟩, ops, orderBy, limitOffset⟩ := c
      · cases paired
      · have paired' : ops.length = (rest.map (Query.rows m)).length := by
          rw [List.length_map]
          exact Nat.succ.inj paired
        have longer := SetOperator.rows_snoc paired' atOps (first.rows m) (r.rows m)
        simpa [Composite.rows, Composite.append] using longer
    · exact pair
  · exact pair

/-- Calls one after another, each on what the calls before it gave. -/
def Query.chain (q : Query) (calls : List (SetOperator × Query)) : Query :=
  calls.foldl (fun q call => q.compose call.1 call.2) q

theorem Query.chain_valid {q : Query} (valid : q.Valid) {calls : List (SetOperator × Query)}
    (terms : ∀ call ∈ calls, call.2.Valid) : (q.chain calls).Valid := by
  induction calls generalizing q with
  | nil => exact valid
  | cons call calls ih =>
    rw [List.forall_mem_cons] at terms
    exact ih (Query.compose_valid valid terms.1 call.1) terms.2

/-- Calls of operators of which none is stronger than an open one or an earlier one are applied in turn. -/
theorem Query.rows_chain (m : Query.Meaning ρ) {q : Query} (valid : q.Valid) {calls : List (SetOperator × Query)}
    (terms : ∀ call ∈ calls, call.2.Valid) (started : ∀ b ∈ q.openOps, ∀ call ∈ calls, call.1.strength ≤ b.strength)
    (descending : calls.Pairwise fun earlier later => later.1.strength ≤ earlier.1.strength) :
    (q.chain calls).rows m = calls.foldl (fun rows call => call.1.apply rows (call.2.rows m)) (q.rows m) := by
  induction calls generalizing q with
  | nil => rfl
  | cons call calls ih =>
    rw [List.forall_mem_cons] at terms
    rw [List.pairwise_cons] at descending
    have composed := Query.compose_valid valid terms.1 call.1
    have first : ∀ b ∈ q.openOps, call.1.strength ≤ b.strength := fun b member =>
      started b member call (List.mem_cons_self ..)
    have onward : ∀ b ∈ (q.compose call.1 call.2).openOps, ∀ later ∈ calls, later.1.strength ≤ b.strength := by
      intro b member later inLater
      rw [Query.openOps_compose, List.mem_append, List.mem_singleton] at member
      obtain old | rfl := member
      · exact started b old later (List.mem_cons_of_mem _ inLater)
      · exact descending.1 later inLater
    have rest := ih composed terms.2 onward descending.2
    rw [Query.rows_compose m valid first call.2] at rest
    exact rest

/-- Composing set operations keeps their grouping as long as no operator is called on an open set operation with
a weaker one: a chain of calls means the calls from left to right. The rows are read from the terms and
operators that are written. -/
theorem Query.chain_rows {q : Query} (valid : q.Valid) {calls : List (SetOperator × Query)}
    (terms : ∀ call ∈ calls, call.2.Valid) (started : ∀ b ∈ q.openOps, ∀ call ∈ calls, call.1.strength ≤ b.strength)
    (descending : calls.Pairwise fun earlier later => later.1.strength ≤ earlier.1.strength)
    (m : Query.Meaning ρ) :
    (q.chain calls).rows m = calls.foldl (fun rows call => call.1.apply rows (call.2.rows m)) (q.rows m) ∧
      ∀ c, (q.chain calls).composite? = some c →
        (q.chain calls).rows m =
            m.tail c.orderBy c.limitOffset (SetOperator.rows c.ops (c.terms.map (Query.rows m))) ∧
          ∀ (style : Style) (ctx : Context) (w v : Writer),
            (c.doc style).Writes ctx w v ↔ c.Written style ctx w v := by
  refine ⟨Query.rows_chain m valid terms started descending, fun c same => ⟨Query.rows_composite m same, ?_⟩⟩
  intro style ctx w v
  exact (Query.composite_valid (Query.chain_valid valid terms) same).writes_iff

end Rows

/-- `SELECT name` -/
def Query.ofColumn (name : String) : Query :=
  .of .select (SelectDraft.empty.addItem (SelectItem.ofExpr (Expr.column ⟨none, ⟨name, .none⟩⟩))).build

/-- One row, which is 1 for `SELECT a` and 2 for all else. -/
def Query.Meaning.oneRow : Query.Meaning Nat where
  select s :=
    match s.toSql with
    | .ok "SELECT a" => {1}
    | _ => {2}
  tail _ _ rows := rows
  withQuery _ rows := rows
  tail_none _ := rfl

theorem Query.ofColumn_valid (name : String) (some : Text.isBlank name = false) : (Query.ofColumn name).Valid := by
  have column : (Expr.column ⟨none, ⟨name, .none⟩⟩).Valid :=
    Expr.column_valid.mpr ⟨nofun, Identifier.valid_of_text some⟩
  have item := SelectItem.ofExpr_valid.mpr column
  exact Query.of_valid.mpr ((SelectDraft.Step.item _ item).valid SelectDraft.empty_valid).build

theorem Query.chain_rows_mixed :
    let q := Query.ofColumn "a"
    let calls := [(SetOperator.intersect, Query.ofColumn "b"), (.unionAll, Query.ofColumn "c")]
    q.Valid ∧ (∀ call ∈ calls, call.2.Valid) ∧
      (∀ b ∈ q.openOps, ∀ call ∈ calls, call.1.strength ≤ b.strength) ∧
      (calls.Pairwise fun earlier later => later.1.strength ≤ earlier.1.strength) ∧
      (q.chain calls).toSql = .ok "SELECT a INTERSECT SELECT b UNION ALL SELECT c" ∧
      (q.chain calls).rows .oneRow = {2} := by
  intro q calls
  have valid : q.Valid := Query.ofColumn_valid "a" rfl
  have terms : ∀ call ∈ calls, call.2.Valid :=
    List.forall_mem_cons.mpr
      ⟨Query.ofColumn_valid "b" rfl, List.forall_mem_singleton.mpr (Query.ofColumn_valid "c" rfl)⟩
  have started : ∀ b ∈ q.openOps, ∀ call ∈ calls, call.1.strength ≤ b.strength := nofun
  have descending : calls.Pairwise fun earlier later => later.1.strength ≤ earlier.1.strength :=
    .cons (List.forall_mem_singleton.mpr (by decide)) (List.pairwise_singleton ..)
  have inTurn := (Query.chain_rows valid terms started descending .oneRow).1
  have computed :
      calls.foldl (fun rows call => call.1.apply rows (call.2.rows .oneRow)) (q.rows .oneRow) = {2} := by decide
  exact ⟨valid, terms, started, descending, by rfl, inTurn.trans computed⟩

/-- INTERSECT is called on a union and takes its second term only. -/
theorem Query.chain_loses_grouping :
    let q := (Query.ofColumn "a").compose .union (Query.ofColumn "b")
    let r := Query.ofColumn "c"
    q.Valid ∧ r.Valid ∧
      (q.compose .intersect r).toSql = .ok "SELECT a UNION SELECT b INTERSECT SELECT c" ∧
      (q.compose .intersect r).rows .oneRow = {1, 2} ∧
      SetOperator.intersect.apply (q.rows .oneRow) (r.rows .oneRow) = {2} := by
  intro q r
  have a := Query.ofColumn_valid "a" rfl
  have b := Query.ofColumn_valid "b" rfl
  exact ⟨Query.compose_valid a b .union, Query.ofColumn_valid "c" rfl, by rfl, by decide, by decide⟩

end SqlTree

import SqlTree.Build.Select
import SqlTree.Proofs.Filled

/-!
A SELECT is built clause by clause. Each call on a draft gives something to one clause, and what becomes of a
clause in the end is determined by what was given to it, in this order; calls on other clauses in between, and
queries taken in between, make no difference.
-/
namespace SqlTree

/-- A call on a draft. Taking the query so far is one, too. -/
inductive SelectCall where
  | distinct
  | distinctOn (on : List Expr)
  | item (item : SelectItem)
  | items (items : List SelectItem)
  | star
  | source (t : TableRef)
  | join (j : Join)
  | filter (p : Predicate)
  | groupBy (items : List Expr)
  | having (p : Predicate)
  | window (w : Tree .windowDef)
  | order (item : Tree .orderItem)
  | limit (n : UInt64)
  | offset (n : UInt64)
  | lock (l : Locking)
  | build

/-- The draft after a call. -/
def SelectDraft.call (d : SelectDraft) : SelectCall → SelectDraft
  | .distinct => d.setDistinct
  | .distinctOn on => d.setDistinctOn on
  | .item item => d.addItem item
  | .items items => d.addItems items
  | .star => d.addItem SelectItem.star
  | .source t => d.setSource t
  | .join j => d.addJoin j
  | .filter p => d.addFilter p
  | .groupBy items => d.setGroupBy items
  | .having p => d.addHaving p
  | .window w => d.addWindow w
  | .order item => d.addOrder item
  | .limit n => d.setLimit n
  | .offset n => d.setOffset n
  | .lock l => d.setLocking l
  | .build => d

def SelectDraft.run (d : SelectDraft) (calls : List SelectCall) : SelectDraft :=
  calls.foldl SelectDraft.call d

/-- The clauses of a SELECT that are given one by one. -/
inductive SelectClause where
  | distinct
  | items
  | source
  | joins
  | filter
  | groupBy
  | having
  | windows
  | orderBy
  | limit
  | offset
  | locking
  deriving DecidableEq

/-- What one call gives to a clause. -/
abbrev SelectClause.Given : SelectClause → Type
  | .distinct => Tree .distinct
  | .items => List SelectItem
  | .source => TableRef
  | .joins => Join
  | .filter => Predicate
  | .groupBy => Tree .groupBy
  | .having => Predicate
  | .windows => Tree .windowDef
  | .orderBy => Tree .orderItem
  | .limit => UInt64
  | .offset => UInt64
  | .locking => Locking

namespace SelectCall

/-- The clause that a call is on, with what it gives to it. -/
def gift? : SelectCall → Option ((clause : SelectClause) × clause.Given)
  | .distinct => some ⟨.distinct, .node .distinct .nil⟩
  | .distinctOn on => some ⟨.distinct, .node .distinctOn (.ofList on .nil)⟩
  | .item entry => some ⟨.items, [entry]⟩
  | .items entries => some ⟨.items, entries⟩
  | .star => some ⟨.items, [SelectItem.star]⟩
  | .source t => some ⟨.source, t⟩
  | .join j => some ⟨.joins, j⟩
  | .filter p => some ⟨.filter, p⟩
  | .groupBy keys => some ⟨.groupBy, .node .groupBy (.ofList keys .nil)⟩
  | .having p => some ⟨.having, p⟩
  | .window w => some ⟨.windows, w⟩
  | .order key => some ⟨.orderBy, key⟩
  | .limit n => some ⟨.limit, n⟩
  | .offset n => some ⟨.offset, n⟩
  | .lock l => some ⟨.locking, l⟩
  | .build => none

/-- The clause that a call is on. -/
def clause? (c : SelectCall) : Option SelectClause :=
  c.gift?.map Sigma.fst

/-- What a call gives to a clause. -/
def given? (clause : SelectClause) (c : SelectCall) : Option clause.Given :=
  c.gift?.bind fun gift => if same : gift.1 = clause then some (same ▸ gift.2) else none

/-- All that calls give to a clause, in the order of the calls. -/
def allGiven (clause : SelectClause) (calls : List SelectCall) : List clause.Given :=
  calls.filterMap (given? clause)

/-- The clauses that calls determine, each from what was given to it alone. -/
def determined (calls : List SelectCall) : SelectParts Tree where
  distinct := (allGiven .distinct calls).getLast?
  items :=
    let items := (allGiven .items calls).flatten
    if items.isEmpty then [SelectItem.star] else items
  source := (allGiven .source calls).getLast?
  joins := allGiven .joins calls
  filter := Predicate.joined? .and (allGiven .filter calls)
  groupBy := (allGiven .groupBy calls).getLast?
  having := Predicate.joined? .and (allGiven .having calls)
  windows := allGiven .windows calls
  orderBy :=
    let items := allGiven .orderBy calls
    if items.isEmpty then none else some (OrderBy.ofList items)
  limitOffset :=
    let window : LimitOffset := ⟨(allGiven .limit calls).getLast?, (allGiven .offset calls).getLast?⟩
    if window.isEmpty then none else some (.limitOffset window)
  locking := (allGiven .locking calls).getLast?.map .locking

/-- Only a call on a clause gives something to it. -/
theorem given?_of_ne {clause : SelectClause} {c : SelectCall} (other : c.clause? ≠ some clause) :
    c.given? clause = none := by
  unfold clause? at other
  unfold given?
  cases gift : c.gift? with
  | none => rfl
  | some gift' =>
    rw [gift] at other
    exact dif_neg fun same => other (congrArg some same)

/-- What is given to a clause is given by the calls on it. -/
theorem allGiven_filter (clause : SelectClause) (calls : List SelectCall) :
    allGiven clause (calls.filter fun c => c.clause? = some clause) = allGiven clause calls := by
  unfold allGiven
  rw [List.filterMap_filter]
  refine List.filterMap_congr fun c _ => ?_
  by_cases on : c.clause? = some clause
  · simp only [on, decide_true, if_true]
  · simp only [on, decide_false, Bool.false_eq_true, if_false, given?_of_ne on]

/-- Calls that are the same on each clause determine the same. -/
theorem determined_eq {calls others : List SelectCall}
    (same : ∀ clause : SelectClause, (calls.filter fun c => c.clause? = some clause) =
      others.filter fun c => c.clause? = some clause) : determined calls = determined others := by
  have given : ∀ clause, allGiven clause calls = allGiven clause others := by
    intro clause
    rw [← allGiven_filter clause calls, same, allGiven_filter]
  simp only [determined, given]

end SelectCall

namespace SelectDraft

open SelectCall

/-- A part of a draft on which the calls on one clause act, and no others, is what they make of it one after the
other. -/
theorem part_run {α : Type} (clause : SelectClause) (part : SelectDraft → α) (act : α → clause.Given → α)
    (step : ∀ (d : SelectDraft) (c : SelectCall), part (d.call c) = (c.given? clause).elim (part d) (act (part d)))
    (d : SelectDraft) (calls : List SelectCall) :
    part (d.run calls) = (allGiven clause calls).foldl act (part d) := by
  induction calls generalizing d with
  | nil => rfl
  | cons c rest ih =>
    have onward : part (d.run (c :: rest)) = (allGiven clause rest).foldl act (part (d.call c)) := ih _
    rw [onward, step d c, allGiven, allGiven, List.filterMap_cons]
    cases c.given? clause <;> rfl

section Folds

variable {α : Type}

theorem foldl_last (xs : List α) (known : Option α) :
    xs.foldl (fun _ x => some x) known = xs.getLast?.or known := by
  induction xs generalizing known with
  | nil => rfl
  | cons x xs ih =>
    rw [List.foldl_cons, ih, List.getLast?_cons]
    cases xs.getLast? <;> rfl

theorem foldl_both (conditions : List Predicate) :
    conditions.foldl (fun known p => some (both known p)) none = Predicate.joined? .and conditions := by
  have further : ∀ (rest : List Predicate) (q : Predicate),
      rest.foldl (fun known p => some (both known p)) (some q) =
        some (rest.foldl (Predicate.connective .and) q) := by
    intro rest
    induction rest with
    | nil => exact fun _ => rfl
    | cons p rest ih => exact fun q => ih (.connective .and q p)
  cases conditions with
  | nil => rfl
  | cons p rest => exact further rest p

/-- Items that are added to a list which is there from the first of them on. -/
theorem foldl_started (xs : List α) :
    xs.foldl (fun known x => some (known.getD [] ++ [x])) none = if xs.isEmpty then none else some xs := by
  have further : ∀ (rest : List α) (known : List α),
      rest.foldl (fun known x => some (known.getD [] ++ [x])) (some known) = some (known ++ rest) := by
    intro rest
    induction rest with
    | nil => simp
    | cons x rest ih =>
      intro known
      rw [List.foldl_cons, Option.getD_some, ih, List.append_assoc, List.singleton_append]
  cases xs with
  | nil => rfl
  | cons x rest => exact further rest [x]

end Folds

/-- The row window is there when it has a limit or an offset only. -/
def Windowed (d : SelectDraft) : Prop :=
  d.limitOffset = if d.rowWindow.isEmpty then none else some d.rowWindow

theorem empty_windowed : empty.Windowed :=
  rfl

theorem Windowed.call {d : SelectDraft} (windowed : d.Windowed) (c : SelectCall) : (d.call c).Windowed := by
  have given : ∀ w : LimitOffset, w.isEmpty = false → Windowed { d with limitOffset := some w } := by
    intro w solid
    change some w = if w.isEmpty then none else some w
    rw [if_neg (Bool.not_eq_true _ ▸ solid)]
  cases c with
  | limit n => exact given _ rfl
  | offset n => exact given _ (Bool.and_false _)
  | _ => exact windowed

theorem Windowed.run {d : SelectDraft} (windowed : d.Windowed) (calls : List SelectCall) :
    (d.run calls).Windowed := by
  induction calls generalizing d with
  | nil => exact windowed
  | cons c _ ih => exact ih (windowed.call c)

section Parts

variable (calls : List SelectCall)

/-- A part that each call on its clause sets anew has what was given last. -/
theorem part_run_last (clause : SelectClause) (part : SelectDraft → Option clause.Given)
    (step : ∀ (d : SelectDraft) (c : SelectCall),
      part (d.call c) = (c.given? clause).elim (part d) some) (start : part empty = none) :
    part (empty.run calls) = (allGiven clause calls).getLast? := by
  rw [part_run clause part (fun _ x => some x) step, foldl_last, start, Option.or_none]

/-- A part to which each call on its clause adds an entry has the entries in the order of the calls. -/
theorem part_run_added (clause : SelectClause) (part : SelectDraft → List clause.Given)
    (step : ∀ (d : SelectDraft) (c : SelectCall),
      part (d.call c) = (c.given? clause).elim (part d) fun x => part d ++ [x]) (start : part empty = []) :
    part (empty.run calls) = allGiven clause calls := by
  rw [part_run clause part (fun known x => known ++ [x]) step, start, List.foldl_append_eq_append]
  exact List.flatMap_singleton' _

theorem items_run : (empty.run calls).items = (allGiven .items calls).flatten := by
  rw [part_run .items SelectDraft.items (fun known entries => known ++ entries) fun d c => by cases c <;> rfl,
    List.foldl_append_eq_append (f := fun entries => entries), List.map_id']
  rfl

theorem filter_run : (empty.run calls).filter = Predicate.joined? .and (allGiven .filter calls) := by
  rw [part_run .filter SelectDraft.filter (fun known p => some (both known p)) fun d c => by cases c <;> rfl]
  exact foldl_both _

theorem having_run : (empty.run calls).having = Predicate.joined? .and (allGiven .having calls) := by
  rw [part_run .having SelectDraft.having (fun known p => some (both known p)) fun d c => by cases c <;> rfl]
  exact foldl_both _

theorem orderBy_run :
    (empty.run calls).orderBy =
      if (allGiven .orderBy calls).isEmpty then none else some (allGiven .orderBy calls) := by
  rw [part_run .orderBy SelectDraft.orderBy (fun known key => some (known.getD [] ++ [key]))
    fun d c => by cases c <;> rfl]
  exact foldl_started _

/-- The limit and the offset are each the last one given, and neither call clears the other. -/
theorem limitOffset_run :
    let window : LimitOffset := ⟨(allGiven .limit calls).getLast?, (allGiven .offset calls).getLast?⟩
    (empty.run calls).limitOffset = if window.isEmpty then none else some window := by
  have limit : (empty.run calls).rowWindow.limit = (allGiven .limit calls).getLast? :=
    part_run_last calls .limit (fun d => d.rowWindow.limit) (fun d c => by cases c <;> rfl) rfl
  have offset : (empty.run calls).rowWindow.offset = (allGiven .offset calls).getLast? :=
    part_run_last calls .offset (fun d => d.rowWindow.offset) (fun d c => by cases c <;> rfl) rfl
  have window : (empty.run calls).rowWindow =
      ⟨(allGiven .limit calls).getLast?, (allGiven .offset calls).getLast?⟩ := by
    rw [← limit, ← offset]
  have windowed : (empty.run calls).Windowed := empty_windowed.run calls
  rw [Windowed, window] at windowed
  exact windowed

/-- The clauses of a draft are those that the calls determine. -/
theorem parts_run : (empty.run calls).parts = determined calls := by
  have distinct : (empty.run calls).distinct = (allGiven .distinct calls).getLast? :=
    part_run_last calls .distinct SelectDraft.distinct (fun d c => by cases c <;> rfl) rfl
  have source : (empty.run calls).source = (allGiven .source calls).getLast? :=
    part_run_last calls .source SelectDraft.source (fun d c => by cases c <;> rfl) rfl
  have joins : (empty.run calls).joins = allGiven .joins calls :=
    part_run_added calls .joins SelectDraft.joins (fun d c => by cases c <;> rfl) rfl
  have groupBy : (empty.run calls).groupBy = (allGiven .groupBy calls).getLast? :=
    part_run_last calls .groupBy SelectDraft.groupBy (fun d c => by cases c <;> rfl) rfl
  have windows : (empty.run calls).windows = allGiven .windows calls :=
    part_run_added calls .windows SelectDraft.windows (fun d c => by cases c <;> rfl) rfl
  have locking : (empty.run calls).locking = (allGiven .locking calls).getLast? :=
    part_run_last calls .locking SelectDraft.locking (fun d c => by cases c <;> rfl) rfl
  simp only [parts, determined, distinct, items_run, source, joins, filter_run, groupBy, having_run, windows,
    orderBy_run, limitOffset_run, locking]
  congr 1
  · split <;> rfl
  · split <;> rfl

end Parts

end SelectDraft

theorem SelectParts.parts_toTree (s : SelectParts Tree) : s.toTree.parts = s := by
  change SelectParts.ofFill (Forest.ofContents Form.select.slots s.toFill).contents = s
  rw [Forest.contents_ofContents]
  rfl

/-- A SELECT is built clause by clause. Whatever the calls, each clause of the query is what the calls on it
determine: the entries in the order of the calls, where no item at all stands for a single star; the conjunction
of the conditions from the left; the last limit and the last offset, each by itself; the last value given. So calls
that are the same on each clause build the same query, calls on different clauses can change places, and a query
that is taken in between changes nothing later. -/
theorem SelectDraft.build_clausewise (calls : List SelectCall) :
    (empty.run calls).build.parts = SelectCall.determined calls ∧
    (∀ others : List SelectCall,
      (∀ clause : SelectClause, (calls.filter fun c => c.clause? = some clause) =
        others.filter fun c => c.clause? = some clause) →
      (empty.run others).build = (empty.run calls).build) ∧
    (∀ before after first second, calls = before ++ first :: second :: after → first.clause? ≠ second.clause? →
      (empty.run (before ++ second :: first :: after)).build = (empty.run calls).build) ∧
    ∀ before after, calls = before ++ .build :: after → empty.run (before ++ after) = empty.run calls := by
  have interleaved : ∀ others : List SelectCall,
      (∀ clause : SelectClause, (calls.filter fun c => c.clause? = some clause) =
        others.filter fun c => c.clause? = some clause) →
      (empty.run others).build = (empty.run calls).build := by
    intro others same
    rw [build, build, parts_run, parts_run, SelectCall.determined_eq same]
  refine ⟨?determined, interleaved, ?swapped, ?taken⟩
  case determined =>
    rw [build, SelectParts.parts_toTree, parts_run]
  case swapped =>
    intro before after first second split apart
    refine interleaved _ fun clause => ?_
    -- one of the two is not on the clause
    rw [split, List.filter_append, List.filter_append]
    congr 1
    by_cases on : first.clause? = some clause
    · have off : second.clause? ≠ some clause := fun same => apart (on.trans same.symm)
      simp [on, off]
    · simp [List.filter_cons, on]
  case taken =>
    intro before after split
    rw [split, run, run, List.foldl_append, List.foldl_append]
    rfl

/-- A limit given twice, an offset and two conditions, with a query taken in between: the second limit counts, the
offset stays, and the limit and the conditions may be given in another order. -/
theorem SelectDraft.build_clausewise_limited :
    let p : Predicate := .isNull (Expr.literal (.integer 1))
    let q : Predicate := .isNotNull (Expr.literal (.integer 2))
    let calls : List SelectCall := [.limit 10, .filter p, .build, .offset 5, .limit 20, .filter q]
    let query := (empty.run calls).build
    query.parts.limitOffset = some (.limitOffset ⟨some 20, some 5⟩) ∧
      query.parts.filter = some (Predicate.connective .and p q) ∧ query.parts.items = [SelectItem.star] ∧
      (empty.run [.filter p, .filter q, .offset 5, .limit 10, .limit 20]).build = query ∧
      (empty.run [.limit 10, .filter p, .offset 5, .build, .limit 20, .filter q]).build = query ∧
      (empty.run [.limit 10, .filter p, .offset 5, .limit 20, .filter q]).build = query := by
  intro p q calls query
  obtain ⟨determined, interleaved, swapped, taken⟩ := SelectDraft.build_clausewise calls
  refine ⟨?_, ?_, ?_, ?_, ?_, ?_⟩
  · rw [determined]
    rfl
  · rw [determined]
    rfl
  · rw [determined]
    rfl
  · exact interleaved _ fun clause => by cases clause <;> rfl
  · exact swapped [.limit 10, .filter p] [.limit 20, .filter q] .build (.offset 5) rfl (by decide)
  · exact congrArg build (taken [.limit 10, .filter p] [.offset 5, .limit 20, .filter q] rfl)

end SqlTree

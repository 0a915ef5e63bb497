import Mathlib.Logic.Relation
import SqlTree.Proofs.AppendOnly

/-!
Runs of the writer. A run is any sequence of calls on a page; the body of a block is a run of its own, so pages
in the middle of a block are reached too, and a call that fails does not end the run. Main statement: in every
run a name is entered once, keeps its first value, and is refused with another value only; and the name that
the writer generates is the first one that is free.
-/
namespace SqlTree

/-- One call on a page. A block is opened and closed by two calls, or left when a call in it has failed. -/
inductive Writer.Step : Writer → Writer → Prop
  | write (w : Writer) (s : String) : Step w (w.write s)
  | separator (w : Writer) : Step w w.separator
  | clause (w : Writer) (keyword : String) : Step w (w.clause keyword)
  | openBlock (w : Writer) : Step w w.openBlock
  | closeBlock (w : Writer) (pretty : Bool) : Step w (w.closeBlock pretty)
  | leaveBlock (w : Writer) (pretty : Bool) : Step w (w.leaveBlock pretty)
  | param (w : Writer) (entry : BindParam) : Step w (w.pushParam entry)
  | reserve (w : Writer) (names : List String) : Step w (w.reserve names)
  | name (w : Writer) (name : String) (value : Option Literal) :
      Step w ((Context.enterName name value).outcome w).2
  | wrap (w : Writer) (start : Nat) : Step w (w.wrapFrom start)
  | note (w : Writer) (event : Event) : Step w (w.note event)

/-- Calls one after the other. -/
abbrev Writer.Run : Writer → Writer → Prop :=
  Relation.ReflTransGen Writer.Step

section Names

variable {w v : Writer} {name : String} {value : Option Literal}

/-- A name is refused when it has another value, and then the page stays as it is. -/
theorem Context.enterName_fails_iff {e : Error} :
    (Context.enterName name value).outcome w = (.error e, v) ↔
      (∃ bound, w.named.lookup name = some bound ∧ (bound == value) = false) ∧
        e = .invalid (.nameConflict name) ∧ v = w := by
  rw [Context.outcome_enterName]
  cases known : w.named.lookup name with
  | none => simp
  | some bound =>
    by_cases same : (bound == value) = true
    · simp [same]
    · have differs : (bound == value) = false := (Bool.not_eq_true _).mp same
      simp only [differs, Bool.false_eq_true, if_false, Prod.mk.injEq, Except.error.injEq, Option.some.injEq,
        exists_eq_left', true_and]
      exact and_congr eq_comm eq_comm

/-- A name that is entered has its first value. -/
theorem Context.lookup_of_enterName (entered : (Context.enterName name value).outcome w = (.ok (), v)) :
    v.named.lookup name = some ((w.named.lookup name).getD value) := by
  rw [Context.outcome_enterName] at entered
  cases known : w.named.lookup name with
  | none =>
    rw [known] at entered
    cases entered
    simp [List.lookup_append, known]
  | some bound =>
    rw [known] at entered
    by_cases same : (bound == value) = true
    · simp only [same, if_true] at entered
      cases entered
      exact known
    · simp only [same, if_false, Bool.false_eq_true] at entered
      cases entered

/-- A name that is new can be entered with any value. -/
theorem Context.enterName_of_new (new : w.named.lookup name = none) (value : Option Literal) :
    ∃ u, (Context.enterName name value).outcome w = (.ok (), u) ∧ u.named.lookup name = some value := by
  have entered : (Context.enterName name value).outcome w =
      (.ok (), { w with named := w.named ++ [(name, value)] }) := by
    rw [Context.outcome_enterName, new]
  refine ⟨_, entered, ?_⟩
  rw [Context.lookup_of_enterName entered, new, Option.getD_none]

/-- A call leaves the names that are entered as they are, or enters one that is new. -/
theorem Writer.Step.named (step : w.Step v) :
    v.named = w.named ∨ ∃ name value, w.named.lookup name = none ∧ v.named = w.named ++ [(name, value)] := by
  cases step with
  | write s => exact .inl rfl
  | separator => exact .inl (congrArg Book.named w.book_separator)
  | clause keyword => exact .inl (congrArg Book.named w.book_separator)
  | openBlock => exact .inl (congrArg Book.named w.book_openBlock)
  | closeBlock pretty => exact .inl (congrArg Book.named (w.book_closeBlock pretty))
  | leaveBlock pretty =>
    left
    unfold Writer.leaveBlock
    split <;> rfl
  | param entry => exact .inl rfl
  | reserve names => exact .inl rfl
  | name name value =>
    rw [Context.outcome_enterName]
    cases known : w.named.lookup name with
    | none => exact .inr ⟨name, value, known, rfl⟩
    | some bound =>
      left
      by_cases same : (bound == value) = true
      · simp only [same, if_true]
      · simp only [same, if_false, Bool.false_eq_true]
  | wrap start => exact .inl rfl
  | note event => exact .inl rfl

/-- A name that is in the book keeps its value. -/
theorem Writer.Step.kept (step : w.Step v) (known : w.named.lookup name = some value) :
    v.named.lookup name = some value := by
  rcases step.named with same | ⟨other, added, _, grown⟩
  · rw [same, known]
  · rw [grown, List.lookup_append, known, Option.some_or]

/-- No name is entered a second time. -/
theorem Writer.Step.once (step : w.Step v) (once : (w.named.map Prod.fst).Nodup) :
    (v.named.map Prod.fst).Nodup := by
  rcases step.named with same | ⟨name, value, new, grown⟩
  · rwa [same]
  · have other : name ∉ w.named.map Prod.fst := by
      intro member
      obtain ⟨entry, listed, rfl⟩ := List.mem_map.mp member
      have apart := List.lookup_eq_none_iff.mp new entry listed
      simp at apart
    rw [grown, List.map_append, List.map_singleton, ← List.concat_eq_append]
    exact once.concat other

theorem Writer.Run.kept (run : w.Run v) (known : w.named.lookup name = some value) :
    v.named.lookup name = some value := by
  induction run with
  | refl => exact known
  | tail _ step ih => exact step.kept ih

/-- However a page was reached, each name stands in its book once. -/
theorem Writer.Run.once {pretty : Bool} (reached : (Writer.blank pretty).Run w) :
    (w.named.map Prod.fst).Nodup := by
  induction reached with
  | refl => exact List.nodup_nil
  | tail _ step ih => exact step.once ih

/-- The book of names is written once. On every page that a run reaches, a name is entered at most once; it is
refused exactly when it is in the book with another value, and then the page stays as it is; and otherwise it has
its first value from then on in every run. The generated name is `p` with the least number from the index on that
is free; it can be entered at once with any value, and it is none of the names kept for the caller. -/
theorem Writer.run_names {pretty : Bool} (reached : (Writer.blank pretty).Run w) :
    (w.named.map Prod.fst).Nodup ∧
    (∀ (name : String) (value : Option Literal),
      ((∃ e u, (Context.enterName name value).outcome w = (.error e, u)) ↔
        ∃ bound, w.named.lookup name = some bound ∧ (bound == value) = false) ∧
      (∀ e u, (Context.enterName name value).outcome w = (.error e, u) →
        e = .invalid (.nameConflict name) ∧ u = w) ∧
      ∀ u, (Context.enterName name value).outcome w = (.ok (), u) →
        ∀ later, u.Run later → later.named.lookup name = some ((w.named.lookup name).getD value)) ∧
    (∀ name bound, w.named.lookup name = some bound →
      ∀ later, w.Run later → later.named.lookup name = some bound) ∧
    ∀ index, ∃ n, w.generatedName index = "p" ++ toString n ∧
      IsLeast {m | index ≤ m ∧ "p" ++ toString m ∉ w.reserved ∧ w.named.lookup ("p" ++ toString m) = none} n ∧
      w.generatedName index ∉ w.reserved ∧
      ∀ value, ∃ u, (Context.enterName (w.generatedName index) value).outcome w = (.ok (), u) ∧
        u.named.lookup (w.generatedName index) = some value := by
  refine ⟨reached.once, fun name value => ⟨?refused, ?unchanged, ?first⟩, ?later, fun index => ?generated⟩
  case refused =>
    constructor
    · rintro ⟨e, u, failed⟩
      exact (Context.enterName_fails_iff.mp failed).1
    · intro other
      exact ⟨_, w, Context.enterName_fails_iff.mpr ⟨other, rfl, rfl⟩⟩
  case unchanged =>
    intro e u failed
    exact (Context.enterName_fails_iff.mp failed).2
  case first =>
    intro u entered later run
    exact run.kept (Context.lookup_of_enterName entered)
  case later =>
    intro name bound known later run
    exact run.kept known
  case generated =>
    obtain ⟨n, same, least⟩ := w.generatedName_isLeast index
    simp only [Writer.isTaken_eq_false] at least
    obtain ⟨_, unreserved, new⟩ := least.1
    rw [same]
    exact ⟨n, rfl, least, unreserved, Context.enterName_of_new new⟩

/-- With `p1` kept for the caller and `p2` entered, the next name is `p3`, and `p2` is refused with another
value. -/
theorem Writer.run_names_skipped :
    let w : Writer := ⟨"", [], [("p2", some (.integer 1))], ["p1"], false, 0, []⟩
    (Writer.blank false).Run w ∧ w.generatedName 1 = "p3" ∧
      (Context.enterName "p2" (some (.integer 2))).outcome w = (.error (.invalid (.nameConflict "p2")), w) ∧
      ∀ u, (Context.enterName "p3" (some (.integer 2))).outcome w = (.ok (), u) →
        ∀ later, u.Run later → later.named.lookup "p3" = some (some (.integer 2)) := by
  intro w
  have reached : (Writer.blank false).Run w :=
    .tail (.single (.reserve _ ["p1"])) (.name _ "p2" (some (.integer 1)))
  obtain ⟨_, names, _, generated⟩ := Writer.run_names reached
  obtain ⟨n, same, ⟨⟨above, unreserved, new⟩, smallest⟩, _⟩ := generated 1
  have third : n = 3 := by
    have atMost : n ≤ 3 := smallest ⟨by decide, by decide, by decide⟩
    have first : n ≠ 1 := by
      rintro rfl
      exact absurd unreserved (by decide)
    have second : n ≠ 2 := by
      rintro rfl
      exact absurd new (by decide)
    omega
  obtain ⟨e, u, failed⟩ := (names "p2" (some (.integer 2))).1.mpr ⟨some (.integer 1), rfl, by decide⟩
  obtain ⟨rfl, rfl⟩ := (names "p2" (some (.integer 2))).2.1 e u failed
  refine ⟨reached, by rw [same, third]; rfl, failed, ?_⟩
  intro u entered later run
  exact (names "p3" (some (.integer 2))).2.2 u entered later run

end Names

/-- A step that is a run of calls on the page, whether it succeeds or fails. -/
def Writing.Stepwise (x : Writing Error Unit) : Prop :=
  ∀ w : Writer, w.Run (x.outcome w).2

namespace Writing.Stepwise

variable {x : Writing Error Unit}

theorem pure_unit : Writing.Stepwise (pure ()) :=
  fun _ => .refl

theorem throw (e : Error) : Writing.Stepwise (throw e) :=
  fun _ => .refl

theorem bind {f : Unit → Writing Error Unit} (first : x.Stepwise) (second : (f ()).Stepwise) :
    Writing.Stepwise (x >>= f) := by
  intro w
  have run := first w
  rw [Writing.outcome_bind]
  generalize x.outcome w = outcome at run
  obtain ⟨e | ⟨⟩, u⟩ := outcome
  · exact run
  · exact run.trans (second u)

theorem nested (body : x.Stepwise) : Writing.Stepwise (Writing.nested x) := by
  intro w
  have run := body w.openBlock
  rw [Writing.outcome_nested]
  generalize x.outcome w.openBlock = outcome at run
  obtain ⟨e | ⟨⟩, u⟩ := outcome
  · exact (run.head (.openBlock w)).tail (.leaveBlock u w.pretty)
  · exact (run.head (.openBlock w)).tail (.closeBlock u w.pretty)

theorem guardedInPlace (body : x.Stepwise) : Writing.Stepwise (Writing.guardedInPlace x) := by
  intro w
  have run := body w
  rw [Writing.outcome_guardedInPlace]
  generalize x.outcome w = outcome at run
  obtain ⟨e | ⟨⟩, u⟩ := outcome
  · exact run
  · dsimp only
    split
    · exact run.tail (.wrap u _)
    · exact run

theorem place (entry : BindParam) (shown : String) : Writing.Stepwise (Context.place entry shown) :=
  fun w => .tail (.single (.param w entry)) (.write _ shown)

theorem enterName (name : String) (value : Option Literal) : Writing.Stepwise (Context.enterName name value) :=
  fun w => .single (.name w name value)

end Writing.Stepwise

theorem Context.bindParam_stepwise (ctx : Context) (p : Param) : Writing.Stepwise (ctx.bindParam p) := by
  cases carried : p.value with
  | none =>
    unfold Context.bindParam
    rw [carried]
    cases p.kind with
    | named name => exact .bind (.enterName name none) (.place _ _)
    | ordinal index => exact .throw _
    | anonymous => exact .throw _
  | some value =>
    intro w
    rw [ctx.outcome_bindParam carried]
    cases ctx.options.placeholder with
    | positional => exact Writing.Stepwise.place _ _ w
    | ordinal => exact Writing.Stepwise.place _ _ w
    | named => exact Writing.Stepwise.bind (.enterName _ _) (.place _ _) w

theorem Doc.write_stepwise (ctx : Context) (d : Doc) : Writing.Stepwise (d.write ctx) := by
  rw [← d.writeInPlace_eq ctx]
  induction d with
  | empty => exact .pure_unit
  | text s => exact fun w => .single (.write w s)
  | gap => exact fun w => .single (.separator w)
  | append _ _ first second => exact .bind first second
  | block _ body => exact .nested body
  | require construct =>
    unfold Doc.writeInPlace Doc.write
    split
    · exact .pure_unit
    · exact .throw _
  | fail error => exact .throw error
  | note event => exact fun w => .single (.note w event)
  | param p _ inline =>
    unfold Doc.writeInPlace
    split
    · exact ctx.bindParam_stepwise p
    · exact inline
  | afterMinus _ body => exact .guardedInPlace body

/-- Rendering a node is a run of the writer, also when it fails on the way. -/
theorem Tree.write_run {k : Kind} (t : Tree k) (ctx : Context) (w : Writer) :
    w.Run ((t.write ctx).outcome w).2 :=
  (t.doc ctx.dialect.toStyle).write_stepwise ctx w

end SqlTree

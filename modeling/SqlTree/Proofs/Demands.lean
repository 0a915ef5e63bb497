import SqlTree.Proofs.Rendered

/-!
What a document demands before it can be written: constructs that the dialect must have, and demands that
nothing meets. Unless names of placeholders are compared, writing stops at the first unmet demand and
nowhere else.
-/
namespace SqlTree

inductive Demand where
  | construct (construct : Construct)
  /-- A demand that nothing meets. -/
  | never (error : Error)
  deriving DecidableEq

/-- The error of a demand that a dialect does not meet. -/
def Demand.unmet? (dialect : Dialect) : Demand → Option Error
  | .construct c =>
    if dialect.capabilities.supports c.feature then none else some (.unsupported c dialect.name)
  | .never error => some error

namespace Doc

/-- The demands of a document in written order. When values are bound, a parameter demands one; otherwise
it demands what its own document does. -/
def demands (mode : Mode) : Doc → List Demand
  | .empty | .text _ | .gap | .note _ => []
  | .append first second => first.demands mode ++ second.demands mode
  | .block body | .afterMinus body => body.demands mode
  | .require construct => [.construct construct]
  | .fail error => [.never error]
  | .param p inline =>
    match mode with
    | .bind => p.valueless?.toList.map fun q => .never (.unbound q)
    | .inline => inline.demands mode

/-- The error of the first demand that is not met. -/
def obstacle? (ctx : Context) (d : Doc) : Option Error :=
  (d.demands ctx.options.mode).findSome? (·.unmet? ctx.dialect)

theorem obstacle?_append (ctx : Context) (first second : Doc) :
    (first ++ second).obstacle? ctx = (first.obstacle? ctx).or (second.obstacle? ctx) :=
  List.findSome?_append

end Doc

/-- No name on the page has a value, so that every name may come again without one. -/
def Writer.NamesOpen (w : Writer) : Prop :=
  ∀ entry ∈ w.named, entry.2 = none

/-- A step stops with a given error, or succeeds and leaves the names open. -/
def Outcome.StopsWith (r : Except Error Unit × Writer) : Option Error → Prop
  | some e => r.1 = .error e
  | none => r.1 = .ok () ∧ r.2.NamesOpen

theorem Outcome.StopsWith.cases {r : Except Error Unit × Writer} {stop : Option Error}
    (stops : Outcome.StopsWith r stop) :
    (∃ e u, stop = some e ∧ r = (.error e, u)) ∨ ∃ u, stop = none ∧ r = (.ok (), u) ∧ u.NamesOpen := by
  obtain ⟨result, u⟩ := r
  cases stop with
  | some e =>
    obtain rfl : result = .error e := stops
    exact .inl ⟨e, u, rfl, rfl⟩
  | none =>
    obtain ⟨rfl, names⟩ : result = .ok () ∧ u.NamesOpen := stops
    exact .inr ⟨u, rfl, rfl, names⟩

/-- A name that has no value can always be entered. -/
theorem Context.enterName_open (name : String) {w : Writer} (names : w.NamesOpen) :
    Outcome.StopsWith ((Context.enterName name none).outcome w) none := by
  rw [Context.outcome_enterName]
  cases known : w.named.lookup name with
  | none =>
    refine ⟨rfl, fun entry member => ?_⟩
    rcases List.mem_append.mp member with old | new
    · exact names entry old
    · rw [List.mem_singleton.mp new]
  | some bound =>
    obtain ⟨before, after, book, _⟩ := List.lookup_eq_some_iff.mp known
    have empty : bound = none := names (name, bound) (by simp [book])
    subst empty
    exact ⟨rfl, names⟩

/-- Unless placeholders are named, a parameter is bound exactly when something can be bound to it. -/
theorem Context.bindParam_stops {ctx : Context} (plain : ctx.options.placeholder ≠ .named) (p : Param)
    {w : Writer} (names : w.NamesOpen) :
    Outcome.StopsWith ((ctx.bindParam p).outcome w) (p.valueless?.map .unbound) := by
  obtain ⟨kind, value⟩ := p
  cases value with
  | none =>
    cases kind with
    | named name =>
      change Outcome.StopsWith (Writing.outcome (do
        Context.enterName name none
        Context.place ⟨some name, none⟩ (":" ++ name)) w) none
      rw [Writing.outcome_bind]
      obtain ⟨_, _, ⟨⟩, _⟩ | ⟨u, _, entered, open'⟩ := (Context.enterName_open name names).cases
      rw [entered]
      exact ⟨rfl, open'⟩
    | ordinal index => rfl
    | anonymous => rfl
  | some value =>
    rw [ctx.outcome_bindParam rfl]
    have valued : (⟨kind, some value⟩ : Param).valueless? = none := by cases kind <;> rfl
    rw [valued]
    cases choice : ctx.options.placeholder with
    | positional | ordinal => exact ⟨rfl, names⟩
    | named => exact absurd choice plain

/-- Writing stops at the first demand that is not met, and nowhere else. -/
theorem Doc.write_stops {ctx : Context}
    (plain : ctx.options.mode = .bind → ctx.options.placeholder ≠ .named) (d : Doc) {w : Writer}
    (names : w.NamesOpen) : Outcome.StopsWith ((d.write ctx).outcome w) (d.obstacle? ctx) := by
  induction d generalizing w with
  | empty | text | note => exact ⟨rfl, names⟩
  | gap =>
    refine ⟨rfl, ?_⟩
    change w.separator.NamesOpen
    unfold Writer.separator
    split <;> exact names
  | append first second left right =>
    change Outcome.StopsWith ((first.write ctx >>= fun _ => second.write ctx).outcome w)
      ((first ++ second).obstacle? ctx)
    rw [Doc.obstacle?_append, Writing.outcome_bind]
    obtain ⟨e, u, stop, atFirst⟩ | ⟨u, stop, atFirst, onward⟩ := (left names).cases <;> rw [stop, atFirst]
    · rfl
    · exact right onward
  | block body ih =>
    have opened : w.openBlock.NamesOpen := by
      unfold Writer.openBlock
      split <;> exact names
    change Outcome.StopsWith ((Writing.nested (body.write ctx)).outcome w) (body.obstacle? ctx)
    rw [Writing.outcome_nested]
    obtain ⟨e, u, stop, atBody⟩ | ⟨u, stop, atBody, onward⟩ := (ih opened).cases <;> rw [stop, atBody]
    · rfl
    · refine ⟨rfl, ?_⟩
      change (u.closeBlock w.pretty).NamesOpen
      unfold Writer.closeBlock
      split <;> exact onward
  | require construct =>
    simp only [Doc.write, Doc.obstacle?, Doc.demands, List.findSome?, Demand.unmet?]
    split
    · exact ⟨rfl, names⟩
    · rfl
  | fail error => rfl
  | param p inline ih =>
    unfold Doc.write Doc.obstacle? Doc.demands
    cases mode : ctx.options.mode with
    | bind =>
      have bound := Context.bindParam_stops (plain mode) p names
      cases valueless : p.valueless? with
      | none => simpa [valueless] using bound
      | some q => simpa [valueless, Demand.unmet?] using bound
    | inline =>
      have written := ih names
      unfold Doc.obstacle? at written
      rw [mode] at written
      exact written
  | afterMinus body ih =>
    change Outcome.StopsWith ((Writing.captured guardMinus (body.write ctx)).outcome w) (body.obstacle? ctx)
    rw [Writing.outcome_captured]
    obtain ⟨e, u, stop, atBody⟩ | ⟨u, stop, atBody, onward⟩ := (ih (w := { w with text := "" }) names).cases
      <;> rw [stop, atBody]
    · rfl
    · exact ⟨rfl, onward⟩

/-- A tree is rendered on a page of its own exactly when its document meets no obstacle. -/
theorem Tree.renderOn_ok_iff {k : Kind} (t : Tree k) (ctx : Context)
    (plain : ctx.options.mode = .bind → ctx.options.placeholder ≠ .named) (reserved : List String) :
    (∃ text, (t.renderOn ctx reserved).result = .ok text) ↔
      (t.doc ctx.dialect.toStyle).obstacle? ctx = none := by
  have stops := Doc.write_stops plain (t.doc ctx.dialect.toStyle) (w := ctx.page reserved) nofun
  rw [Tree.renderOn_result]
  obtain ⟨e, u, stop, written⟩ | ⟨u, stop, written, _⟩ := stops.cases <;> rw [stop, written]
  · exact ⟨nofun, nofun⟩
  · exact ⟨fun _ => rfl, fun _ => ⟨_, rfl⟩⟩

theorem Tree.renderOn_error_iff {k : Kind} (t : Tree k) (ctx : Context)
    (plain : ctx.options.mode = .bind → ctx.options.placeholder ≠ .named) (reserved : List String)
    (e : Error) :
    (t.renderOn ctx reserved).result = .error e ↔ (t.doc ctx.dialect.toStyle).obstacle? ctx = some e := by
  have stops := Doc.write_stops plain (t.doc ctx.dialect.toStyle) (w := ctx.page reserved) nofun
  rw [Tree.renderOn_result]
  obtain ⟨e', u, stop, written⟩ | ⟨u, stop, written, _⟩ := stops.cases <;> rw [stop, written]
  · exact ⟨fun same => by cases same; rfl, fun same => by cases same; rfl⟩
  · exact ⟨nofun, nofun⟩

end SqlTree

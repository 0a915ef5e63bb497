import SqlTree.Proofs.Writing

namespace SqlTree

/-- The entry has the value of the parameter and, unless placeholders are named, the name that the caller
gave to it or none. -/
structure Param.BoundAs (placeholder : Placeholder) (p : Param) (entry : BindParam) : Prop where
  value : entry.value = p.value
  name : placeholder ≠ .named → entry.name = p.name?

/-- The notation of a bound parameter: a mark, a number, or a name that the caller gave or the writer
generated. -/
inductive Param.ShownAs (p : Param) (w : Writer) : String → Prop
  | mark : Param.ShownAs p w "?"
  | number (index : Nat) : Param.ShownAs p w ("$" ++ toString index)
  | given (name : String) (same : p.name? = some name) : Param.ShownAs p w (":" ++ name)
  | generated (index : Nat) : Param.ShownAs p w (":" ++ w.generatedName index)

/-- A page after a parameter was bound on it: nothing changes but for the new entry, the placeholder and
perhaps the book of names. -/
structure Param.Placed (placeholder : Placeholder) (p : Param) (w v : Writer) : Prop where
  entered : ∃ entry, p.BoundAs placeholder entry ∧ v.params = w.params ++ [entry]
  shown : ∃ s, p.ShownAs w s ∧ v.text = w.text ++ s
  pretty : v.pretty = w.pretty
  depth : v.depth = w.depth

/-- Entering a name changes the book of names only. -/
theorem Context.enterName_ok {name : String} {value : Option Literal} {w v : Writer}
    (entered : (Context.enterName name value).outcome w = (.ok (), v)) :
    v = { w with named := v.named } := by
  rw [Context.outcome_enterName] at entered
  cases known : w.named.lookup name with
  | none =>
    rw [known] at entered
    cases entered
    rfl
  | some bound =>
    simp only [known] at entered
    split at entered
    · cases entered
      rfl
    · cases entered

theorem Context.named_ok (entry : BindParam) {name shown : String} {w v : Writer}
    (bound : (do
      Context.enterName name entry.value
      Context.place entry shown).outcome w = (.ok (), v)) :
    ∃ book, v = ({ w with named := book }.pushParam entry).write shown := by
  rw [Writing.outcome_bind] at bound
  generalize entered : (Context.enterName name entry.value).outcome w = r at bound
  obtain ⟨_ | _, u⟩ := r
  · cases bound
  · rw [Context.enterName_ok entered] at bound
    cases bound
    exact ⟨u.named, rfl⟩

/-- Binding a parameter, when it succeeds, writes one placeholder and adds one entry. -/
theorem Context.bindParam_ok {ctx : Context} {p : Param} {w v : Writer}
    (bound : (ctx.bindParam p).outcome w = (.ok (), v)) : p.Placed ctx.options.placeholder w v := by
  cases carried : p.value with
  | none =>
    unfold Context.bindParam at bound
    rw [carried] at bound
    cases kind : p.kind with
    | named name =>
      have given : p.name? = some name := by rw [Param.name?, kind]
      simp only [kind] at bound
      obtain ⟨book, rfl⟩ := Context.named_ok ⟨some name, none⟩ bound
      exact ⟨⟨_, ⟨carried.symm, fun _ => given.symm⟩, rfl⟩, ⟨_, .given name given, rfl⟩, rfl, rfl⟩
    | ordinal index =>
      simp only [kind] at bound
      cases bound
    | anonymous =>
      simp only [kind] at bound
      cases bound
  | some value =>
    rw [ctx.outcome_bindParam carried] at bound
    cases choice : ctx.options.placeholder with
    | positional =>
      simp only [choice] at bound
      cases bound
      exact ⟨⟨_, ⟨carried.symm, fun _ => rfl⟩, rfl⟩, ⟨_, .mark, rfl⟩, rfl, rfl⟩
    | ordinal =>
      simp only [choice] at bound
      cases bound
      exact ⟨⟨_, ⟨carried.symm, fun _ => rfl⟩, rfl⟩, ⟨_, .number _, rfl⟩, rfl, rfl⟩
    | named =>
      simp only [choice] at bound
      obtain ⟨book, rfl⟩ := Context.named_ok ⟨some _, some value⟩ bound
      refine ⟨⟨_, ⟨carried.symm, fun unnamed => absurd rfl unnamed⟩, rfl⟩, ⟨_, ?_, rfl⟩, rfl, rfl⟩
      cases given : p.name? with
      | none => exact .generated _
      | some name => exact .given name given

/-- Where values are bound, that is what writing a parameter leaves. -/
theorem Doc.Writes.placed {ctx : Context} {p : Param} {inline : Doc} {w v : Writer}
    (bind : ctx.options.mode = .bind) (writes : (Doc.param p inline).Writes ctx w v) :
    p.Placed ctx.options.placeholder w v :=
  Context.bindParam_ok ((Doc.Writes.param_bind_iff bind).mp writes)

end SqlTree

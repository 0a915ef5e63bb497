import SqlTree.Render

namespace SqlTree

namespace Writer

def deeper (w : Writer) : Writer :=
  { w with depth := w.depth + 1 }

def shallower (w : Writer) : Writer :=
  { w with depth := w.depth - 1 }

/-- The page on which the body of a block begins. -/
def openBlock (w : Writer) : Writer :=
  if w.pretty then (w.write "(").deeper.newline else w.write "("

/-- The page after a block, from the page after its body. -/
def closeBlock (w : Writer) (pretty : Bool) : Writer :=
  if pretty then w.shallower.newline.write ")" else w.write ")"

/-- The page after a block whose body failed. -/
def leaveBlock (w : Writer) (pretty : Bool) : Writer :=
  if pretty then w.shallower else w

end Writer

namespace Writing

variable {ε α β : Type}

/-- The result of a step, and the page after it. -/
def outcome (x : Writing ε α) (w : Writer) : Except ε α × Writer :=
  x.run w

@[simp]
theorem outcome_pure (a : α) (w : Writer) : (pure a : Writing ε α).outcome w = (.ok a, w) :=
  rfl

@[simp]
theorem outcome_throw (e : ε) (w : Writer) : (throw e : Writing ε α).outcome w = (.error e, w) :=
  rfl

@[simp]
theorem outcome_get (w : Writer) : (get : Writing ε Writer).outcome w = (.ok w, w) :=
  rfl

@[simp]
theorem outcome_modify (f : Writer → Writer) (w : Writer) :
    (modify f : Writing ε Unit).outcome w = (.ok (), f w) :=
  rfl

@[simp]
theorem outcome_put (s : String) (w : Writer) : (put s : Writing ε Unit).outcome w = (.ok (), w.write s) :=
  rfl

@[simp]
theorem outcome_bind (x : Writing ε α) (f : α → Writing ε β) (w : Writer) :
    (x >>= f).outcome w = match x.outcome w with
      | (.ok a, w) => (f a).outcome w
      | (.error e, w) => (.error e, w) := by
  change (match x.outcome w with | (r, w) => (ExceptT.bindCont f r : StateM Writer _) w) = _
  rcases x.outcome w with ⟨_ | _, _⟩ <;> rfl

theorem outcome_indented (body : Writing ε α) (w : Writer) :
    (indented body).outcome w = ((body.outcome w.deeper).1, (body.outcome w.deeper).2.shallower) :=
  rfl

theorem outcome_nested (body : Writing ε Unit) (w : Writer) :
    (nested body).outcome w = match body.outcome w.openBlock with
      | (.ok a, v) => (.ok a, v.closeBlock w.pretty)
      | (.error e, v) => (.error e, v.leaveBlock w.pretty) := by
  have flag : (w.write "(").pretty = w.pretty := rfl
  simp only [nested, outcome_bind, outcome_put, outcome_get, flag, Writer.openBlock]
  cases pretty : w.pretty with
  | true =>
    simp only [if_true, outcome_bind, outcome_indented, outcome_modify]
    rcases body.outcome (w.write "(").deeper.newline with ⟨_ | _, v⟩ <;> rfl
  | false =>
    simp only [Bool.false_eq_true, if_false, outcome_bind]
    rcases body.outcome (w.write "(") with ⟨_ | _, v⟩ <;> rfl

theorem outcome_captured (change : String → String) (body : Writing ε α) (w : Writer) :
    (captured change body).outcome w = match body.outcome { w with text := "" } with
      | (.ok a, v) => (.ok a, { v with text := w.text ++ change v.text })
      | (.error e, v) => (.error e, { v with text := w.text ++ v.text }) :=
  rfl

end Writing

namespace Context

/-- A name is new, or comes again with the value it had at first, or is refused. -/
theorem outcome_enterName (name : String) (value : Option Literal) (w : Writer) :
    (enterName name value).outcome w = match w.named.lookup name with
      | none => (.ok (), { w with named := w.named ++ [(name, value)] })
      | some bound =>
        if bound == value then (.ok (), w) else (.error (.invalid (.nameConflict name)), w) := by
  simp only [enterName, Writing.outcome_bind, Writing.outcome_get, Writer.bindNamed]
  cases w.named.lookup name with
  | none => rfl
  | some bound =>
    by_cases same : (bound == value) = true
    · simp only [same, if_true]
      rfl
    · simp only [same]
      rfl

/-- How a parameter with a value is bound on a given page. -/
theorem outcome_bindParam (ctx : Context) {p : Param} {value : Literal} (carried : p.value = some value)
    (w : Writer) :
    (ctx.bindParam p).outcome w =
      let index := w.params.length + 1
      let name := p.name?.getD (w.generatedName index)
      match ctx.options.placeholder with
      | .positional => (place ⟨p.name?, some value⟩ "?").outcome w
      | .ordinal => (place ⟨p.name?, some value⟩ ("$" ++ toString index)).outcome w
      | .named => (do
          enterName name (some value)
          place ⟨some name, some value⟩ (":" ++ name)).outcome w := by
  unfold bindParam
  rw [carried]
  simp only [Writing.outcome_bind, Writing.outcome_get]
  cases ctx.options.placeholder with
  | positional => rfl
  | ordinal => rfl
  | named => simp only [Writing.outcome_bind]

end Context

/-- Writing a document on one page succeeds and gives another. -/
def Doc.Writes (ctx : Context) (d : Doc) (w v : Writer) : Prop :=
  (d.write ctx).outcome w = (.ok (), v)

namespace Doc.Writes

variable {ctx : Context} {w v : Writer}

theorem empty_iff : Doc.empty.Writes ctx w v ↔ v = w := by
  simp [Doc.Writes, Doc.write, eq_comm (a := v)]

theorem text_iff {s : String} : (Doc.text s).Writes ctx w v ↔ v = w.write s := by
  simp [Doc.Writes, Doc.write, eq_comm (a := v)]

theorem gap_iff : Doc.gap.Writes ctx w v ↔ v = w.separator := by
  simp [Doc.Writes, Doc.write, eq_comm (a := v)]

theorem note_iff {event : Event} : (Doc.note event).Writes ctx w v ↔ v = w.note event := by
  simp [Doc.Writes, Doc.write, eq_comm (a := v)]

theorem require_iff {construct : Construct} :
    (Doc.require construct).Writes ctx w v ↔
      ctx.dialect.capabilities.supports construct.feature = true ∧ v = w := by
  unfold Doc.Writes Doc.write
  split <;> simp_all [eq_comm (a := v)]

theorem not_fail {error : Error} : ¬(Doc.fail error).Writes ctx w v := by
  simp [Doc.Writes, Doc.write]

theorem append_iff {first second : Doc} :
    (first ++ second).Writes ctx w v ↔ ∃ u, first.Writes ctx w u ∧ second.Writes ctx u v := by
  change (first.write ctx >>= fun _ => second.write ctx).outcome w = _ ↔ _
  unfold Doc.Writes
  rw [Writing.outcome_bind]
  rcases (first.write ctx).outcome w with ⟨_ | _, u⟩ <;> simp

theorem block_iff {body : Doc} :
    (Doc.block body).Writes ctx w v ↔
      ∃ u, body.Writes ctx w.openBlock u ∧ v = u.closeBlock w.pretty := by
  unfold Doc.Writes
  rw [Doc.write, Writing.outcome_nested]
  rcases (body.write ctx).outcome w.openBlock with ⟨_ | _, u⟩ <;> simp [eq_comm (a := v)]

theorem afterMinus_iff {body : Doc} :
    (Doc.afterMinus body).Writes ctx w v ↔
      ∃ u, body.Writes ctx { w with text := "" } u ∧ v = { u with text := w.text ++ guardMinus u.text } := by
  unfold Doc.Writes
  rw [Doc.write, Writing.outcome_captured]
  rcases (body.write ctx).outcome { w with text := "" } with ⟨_ | _, u⟩ <;> simp [eq_comm (a := v)]

theorem param_bind_iff {p : Param} {inline : Doc} (bind : ctx.options.mode = .bind) :
    (Doc.param p inline).Writes ctx w v ↔ (ctx.bindParam p).outcome w = (.ok (), v) := by
  unfold Doc.Writes Doc.write
  rw [if_pos bind]

theorem param_inline_iff {p : Param} {inline : Doc} (unbound : ctx.options.mode ≠ .bind) :
    (Doc.param p inline).Writes ctx w v ↔ inline.Writes ctx w v := by
  unfold Doc.Writes
  rw [Doc.write, if_neg unbound]

end Doc.Writes

end SqlTree

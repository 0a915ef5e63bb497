import SqlTree.Proofs.Fragments
import SqlTree.Proofs.Rendered

/-!
Compact and pretty text of the same tree. Both are readings of one plan of texts, breaks and blocks: a
compact page reads a break as a space, a pretty page as a new line at the depth of the blocks around it.
-/
namespace SqlTree

/-- Text with breaks and parenthesised blocks, before it is laid out. -/
inductive Plan where
  | text (s : String)
  | gap
  | append (first second : Plan)
  | block (body : Plan)

namespace Plan

/-- A new line at a depth of indentation. -/
def lineBreak (depth : Nat) : String :=
  String.ofList ('\n' :: List.replicate (2 * depth) ' ')

/-- All on one line. -/
def flat : Plan → String
  | .text s => s
  | .gap => " "
  | .append first second => first.flat ++ second.flat
  | .block body => "(" ++ body.flat ++ ")"

/-- With breaks as new lines and blocks indented. -/
def indented (depth : Nat) : Plan → String
  | .text s => s
  | .gap => lineBreak depth
  | .append first second => first.indented depth ++ second.indented depth
  | .block body => "(" ++ lineBreak (depth + 1) ++ body.indented (depth + 1) ++ lineBreak depth ++ ")"

/-- In parentheses when the text begins with a minus sign. -/
def guarded (plan : Plan) : Plan :=
  if Text.startsMinus plan.flat then .append (.append (.text "(") plan) (.text ")") else plan

theorem startsMinus_lineBreak (depth : Nat) : Text.startsMinus (lineBreak depth) = false := by
  unfold Text.startsMinus lineBreak
  rw [String.toList_ofList]
  rfl

theorem lineBreak_ne_empty (depth : Nat) : lineBreak depth ≠ "" := by
  intro none
  have characters := congrArg String.toList none
  rw [lineBreak, String.toList_ofList] at characters
  cases characters

theorem startsMinus_parens (s : String) : Text.startsMinus ("(" ++ s) = false :=
  Text.startsMinus_append s (by decide)

theorem parens_ne_empty (s : String) : "(" ++ s ≠ "" := by
  intro none
  have characters := congrArg String.toList none
  rw [String.toList_append] at characters
  cases characters

/-- Both readings begin alike, so what follows a minus sign is guarded in both or in neither. -/
theorem begins_alike (plan : Plan) (depth : Nat) :
    (plan.flat = "" ↔ plan.indented depth = "") ∧
      Text.startsMinus plan.flat = Text.startsMinus (plan.indented depth) := by
  induction plan with
  | text s => exact ⟨Iff.rfl, rfl⟩
  | gap =>
    have broken := lineBreak_ne_empty depth
    have unsigned := startsMinus_lineBreak depth
    exact ⟨⟨fun none => absurd none (by decide), fun none => absurd none broken⟩, unsigned.symm⟩
  | append first second left right =>
    obtain ⟨leftEmpty, leftMinus⟩ := left
    obtain ⟨rightEmpty, rightMinus⟩ := right
    refine ⟨?_, ?_⟩
    · simp only [flat, indented, String.append_eq_empty_iff, leftEmpty, rightEmpty]
    · rw [flat, indented]
      by_cases none : first.flat = ""
      · rw [none, leftEmpty.mp none, String.empty_append, String.empty_append, rightMinus]
      · have begun : first.indented depth ≠ "" := fun h => none (leftEmpty.mpr h)
        rw [Text.startsMinus_append _ none, Text.startsMinus_append _ begun, leftMinus]
  | block body _ =>
    simp only [flat, indented, String.append_assoc, startsMinus_parens, parens_ne_empty, and_self]

theorem flat_guarded (plan : Plan) : plan.guarded.flat = Doc.guardMinus plan.flat := by
  rw [Text.guardMinus_eq, guarded]
  split <;> rfl

theorem indented_guarded (plan : Plan) (depth : Nat) :
    plan.guarded.indented depth = Doc.guardMinus (plan.indented depth) := by
  rw [Text.guardMinus_eq, guarded, (plan.begins_alike depth).2]
  split <;> rfl

end Plan

/-- A compact and a pretty page with the same parameters and names. -/
structure Writer.Twin (w v : Writer) : Prop where
  params : w.params = v.params
  named : w.named = v.named
  reserved : w.reserved = v.reserved
  compact : w.pretty = false
  pretty : v.pretty = true

/-- From a compact and a pretty page, both runs fail with one error, or they write two readings of one plan
and return to the depth. -/
inductive Outcome.Laid (w v : Writer) : Except Error Unit × Writer → Except Error Unit × Writer → Prop
  | fails (e : Error) (w' v' : Writer) : Outcome.Laid w v (.error e, w') (.error e, v')
  | writes {w' v' : Writer} (pages : w'.Twin v') (depth : v'.depth = v.depth) (plan : Plan)
      (flat : w'.text = w.text ++ plan.flat) (indented : v'.text = v.text ++ plan.indented v.depth) :
      Outcome.Laid w v (.ok (), w') (.ok (), v')

/-- A step that lays out a plan. -/
def Writing.Laid (x : Writing Error Unit) : Prop :=
  ∀ w v : Writer, w.Twin v → Outcome.Laid w v (x.outcome w) (x.outcome v)

namespace Writing.Laid

theorem pure_unit : Writing.Laid (pure ()) :=
  fun _ _ pages => .writes pages rfl (.text "") String.append_empty.symm String.append_empty.symm

theorem throw (e : Error) : Writing.Laid (throw e) :=
  fun w v _ => .fails e w v

theorem put (s : String) : Writing.Laid (Writing.put s) :=
  fun _ _ pages => .writes { pages with } rfl (.text s) rfl rfl

theorem note (event : Event) : Writing.Laid (modify (·.note event)) :=
  fun _ _ pages => .writes { pages with } rfl (.text "") String.append_empty.symm String.append_empty.symm

theorem separator : Writing.Laid (modify (·.separator)) := by
  intro w v pages
  have compact : w.separator = w.write " " := by
    unfold Writer.separator
    rw [pages.compact]
    rfl
  have pretty : v.separator = v.write (Plan.lineBreak v.depth) := by
    unfold Writer.separator
    rw [pages.pretty]
    rfl
  rw [Writing.outcome_modify, Writing.outcome_modify, compact, pretty]
  exact .writes { pages with } rfl .gap rfl rfl

theorem bind {x : Writing Error Unit} {f : Unit → Writing Error Unit} (first : Writing.Laid x)
    (second : Writing.Laid (f ())) : Writing.Laid (x >>= f) := by
  intro w v pages
  have atFirst := first w v pages
  rw [Writing.outcome_bind, Writing.outcome_bind]
  generalize x.outcome w = r, x.outcome v = s at atFirst
  cases atFirst with
  | fails e w' v' => exact .fails e w' v'
  | @writes w' v' pages' depth plan flat indented =>
    have atSecond := second w' v' pages'
    dsimp only
    generalize (f ()).outcome w' = r, (f ()).outcome v' = s at atSecond
    cases atSecond with
    | fails e w'' v'' => exact .fails e w'' v''
    | @writes w'' v'' pages'' depth' plan' flat' indented' =>
      refine .writes pages'' (depth'.trans depth) (.append plan plan') ?_ ?_
      · rw [flat', flat, Plan.flat, String.append_assoc]
      · rw [indented', indented, depth, Plan.indented, String.append_assoc]

theorem nested {x : Writing Error Unit} (body : Writing.Laid x) : Writing.Laid (Writing.nested x) := by
  intro w v pages
  have opened : w.openBlock = w.write "(" := by
    unfold Writer.openBlock
    rw [pages.compact]
    rfl
  have indentedOpen : v.openBlock = (v.write "(").deeper.newline := by
    unfold Writer.openBlock
    rw [pages.pretty]
    rfl
  have inner : (w.write "(").Twin (v.write "(").deeper.newline := { pages with }
  have atBody := body _ _ inner
  rw [Writing.outcome_nested, Writing.outcome_nested, opened, indentedOpen, pages.compact, pages.pretty]
  generalize x.outcome (w.write "(") = r, x.outcome (v.write "(").deeper.newline = s at atBody
  cases atBody with
  | fails e w' v' => exact .fails e _ _
  | @writes w' v' pages' depth plan flat indented =>
    have deeper : v'.depth = v.depth + 1 := depth
    have returned : v'.depth - 1 = v.depth := by omega
    refine .writes { pages' with } returned (.block plan) ?_ ?_
    · change w'.text ++ ")" = w.text ++ ("(" ++ plan.flat ++ ")")
      rw [flat]
      simp only [Writer.write, String.append_assoc]
    · change v'.text ++ Plan.lineBreak (v'.depth - 1) ++ ")" = v.text ++ ("(" ++ _ ++ _ ++ _ ++ ")")
      rw [indented, returned]
      change v.text ++ "(" ++ Plan.lineBreak (v.depth + 1) ++ _ ++ _ ++ ")" = _
      simp only [String.append_assoc]
      rfl

theorem guarded {x : Writing Error Unit} (body : Writing.Laid x) :
    Writing.Laid (Writing.captured Doc.guardMinus x) := by
  intro w v pages
  have blank : Writer.Twin { w with text := "" } { v with text := "" } := { pages with }
  have atBody := body _ _ blank
  rw [Writing.outcome_captured, Writing.outcome_captured]
  generalize x.outcome { w with text := "" } = r, x.outcome { v with text := "" } = s at atBody
  cases atBody with
  | fails e w' v' => exact .fails e _ _
  | @writes w' v' pages' depth plan flat indented =>
    rw [String.empty_append] at flat indented
    refine .writes { pages' with } depth plan.guarded ?_ ?_
    · rw [plan.flat_guarded, flat]
    · rw [plan.indented_guarded, indented]

theorem place (param : BindParam) (placeholder : String) :
    Writing.Laid (Context.place param placeholder) :=
  fun _ _ pages =>
    .writes { pages with params := congrArg (· ++ [param]) pages.params } rfl (.text placeholder) rfl rfl

theorem enterName (name : String) (value : Option Literal) :
    Writing.Laid (Context.enterName name value) := by
  intro w v pages
  rw [Context.outcome_enterName, Context.outcome_enterName, ← pages.named]
  cases w.named.lookup name with
  | none =>
    exact .writes { pages with named := rfl } rfl (.text "") String.append_empty.symm
      String.append_empty.symm
  | some bound =>
    dsimp only
    split
    · exact pure_unit w v pages
    · exact .fails _ w v

end Writing.Laid

theorem Writer.Twin.generatedName {w v : Writer} (pages : w.Twin v) (index : Nat) :
    w.generatedName index = v.generatedName index := by
  have taken : w.isTaken = v.isTaken := by
    funext name
    rw [Writer.isTaken, Writer.isTaken, pages.reserved, pages.named]
  rw [Writer.generatedName, Writer.generatedName, pages.reserved, pages.named, taken]

theorem Context.bindParam_laid (ctx : Context) (p : Param) : Writing.Laid (ctx.bindParam p) := by
  intro w v pages
  cases carried : p.value with
  | none =>
    unfold Context.bindParam
    rw [carried]
    cases p.kind with
    | named name => exact Writing.Laid.bind (.enterName name none) (.place _ _) w v pages
    | ordinal index => exact .fails _ w v
    | anonymous => exact .fails _ w v
  | some value =>
    have counted : w.params.length = v.params.length := by rw [pages.params]
    simp only [ctx.outcome_bindParam carried, counted, pages.generatedName]
    cases ctx.options.placeholder with
    | positional => exact Writing.Laid.place _ _ w v pages
    | ordinal => exact Writing.Laid.place _ _ w v pages
    | named => exact Writing.Laid.bind (.enterName _ _) (.place _ _) w v pages

/-- Every document lays out a plan. -/
theorem Doc.write_laid (ctx : Context) (d : Doc) : Writing.Laid (d.write ctx) := by
  induction d with
  | empty => exact .pure_unit
  | text s => exact .put s
  | gap => exact .separator
  | append _ _ first second => exact .bind first second
  | block _ body => exact .nested body
  | require construct =>
    unfold Doc.write
    split
    · exact .pure_unit
    · exact .throw _
  | fail error => exact .throw error
  | note event => exact .note event
  | param p _ inline =>
    unfold Doc.write
    split
    · exact ctx.bindParam_laid p
    · exact inline
  | afterMinus _ body => exact .guarded body

/-- The layout is the page's, so the options need not say it. -/
theorem Doc.write_pretty (dialect : Dialect) (options : RenderOptions) (pretty : Bool) (d : Doc) :
    d.write ⟨dialect, { options with pretty := pretty }⟩ = d.write ⟨dialect, options⟩ := by
  induction d with
  | append first second left right => rw [Doc.write, Doc.write, left, right]
  | block body ih => rw [Doc.write, Doc.write, ih]
  | param p inline ih => simp only [Doc.write, ih]; rfl
  | afterMinus body ih => rw [Doc.write, Doc.write, ih]
  | _ => rfl

/-- A compact and a pretty result: the same error, or the same parameters and two readings of one plan. -/
def Outcome.TwoReadings (compact pretty : Except Error SqlText) : Prop :=
  (∃ e, compact = .error e ∧ pretty = .error e) ∨
    ∃ (plan : Plan) (params : List BindParam),
      compact = .ok ⟨plan.flat, params⟩ ∧ pretty = .ok ⟨plan.indented 0, params⟩

theorem Tree.renderOn_readings {k : Kind} (t : Tree k) (dialect : Dialect) (options : RenderOptions)
    (reserved : List String) :
    Outcome.TwoReadings (t.renderOn ⟨dialect, { options with pretty := false }⟩ reserved).result
      (t.renderOn ⟨dialect, { options with pretty := true }⟩ reserved).result := by
  have pages : ((Writer.blank false).reserve reserved).Twin ((Writer.blank true).reserve reserved) :=
    ⟨rfl, rfl, rfl, rfl, rfl⟩
  have onPage : ∀ pretty : Bool,
      (t.renderOn ⟨dialect, { options with pretty := pretty }⟩ reserved).result =
        Outcome.result (((t.doc dialect.toStyle).write ⟨dialect, options⟩).outcome
          ((Writer.blank pretty).reserve reserved)) := fun pretty => by
    rw [Tree.renderOn_result, Doc.write_pretty]
    rfl
  have laid := (t.doc dialect.toStyle).write_laid ⟨dialect, options⟩ _ _ pages
  rw [onPage, onPage]
  generalize Writing.outcome _ ((Writer.blank false).reserve reserved) = r,
    Writing.outcome _ ((Writer.blank true).reserve reserved) = s at laid
  cases laid with
  | fails e w v => exact .inl ⟨e, rfl, rfl⟩
  | @writes w v pages' depth plan flat indented =>
    have atCompact : w.text = plan.flat := flat.trans String.empty_append
    have atPretty : v.text = plan.indented 0 := indented.trans String.empty_append
    refine .inr ⟨plan, w.params, ?_, ?_⟩
    · rw [← atCompact]
      rfl
    · rw [← atPretty, pages'.params]
      rfl

/-- A pretty text is the compact text laid out anew: both fail with one error, or they have the same
parameters and read one plan, flat and indented. -/
theorem Tree.render_two_readings {k : Kind} (t : Tree k) (dialect : Dialect) (mode : Mode)
    (placeholder : Placeholder) :
    (∃ e, (t.render dialect ⟨mode, placeholder, false⟩).result = .error e ∧
      (t.render dialect ⟨mode, placeholder, true⟩).result = .error e) ∨
    ∃ (plan : Plan) (params : List BindParam),
      (t.render dialect ⟨mode, placeholder, false⟩).result = .ok ⟨plan.flat, params⟩ ∧
      (t.render dialect ⟨mode, placeholder, true⟩).result = .ok ⟨plan.indented 0, params⟩ := by
  cases mode with
  | inline =>
    rw [t.render_inline dialect rfl, t.render_inline dialect rfl]
    exact t.renderOn_readings dialect ⟨.inline, placeholder, false⟩ []
  | bind =>
    rw [t.render_bind dialect rfl, t.render_bind dialect rfl]
    dsimp only
    cases (t.numbered .start).1.firstValueless? with
    | some p => exact .inl ⟨_, rfl, rfl⟩
    | none => exact Tree.renderOn_readings _ dialect ⟨.bind, placeholder, false⟩ _

end SqlTree

import SqlTree.Proofs.Alike
import SqlTree.Proofs.Writing

/-!
Two runs of the writer in lockstep. Documents that differ in the values of parameters only are written
alike when values are bound. When placeholders are named, the second use of a name compares values, so
there the runs agree as long as both succeed.
-/
namespace SqlTree

/-- Pages that differ in bound values only. The flag says whether the values in the book of names may
differ too. -/
structure Writer.Alike (names : Bool) (w v : Writer) : Prop where
  text : w.text = v.text
  params : w.params.map (·.name) = v.params.map (·.name)
  keys : w.named.map (·.1) = v.named.map (·.1)
  named : names = false → w.named = v.named
  reserved : w.reserved = v.reserved
  pretty : w.pretty = v.pretty
  depth : w.depth = v.depth

/-- The same result on pages that are alike. When names may have different values, it is enough that one
of the runs fails. -/
def Outcome.Alike (names : Bool) (r s : Except Error Unit × Writer) : Prop :=
  (r.1 = s.1 ∧ r.2.Alike names s.2) ∨ names = true ∧ ((∃ e, r.1 = .error e) ∨ ∃ e, s.1 = .error e)

/-- Steps that have the same outcome on pages that are alike. -/
def Writing.Alike (names : Bool) (x y : Writing Error Unit) : Prop :=
  ∀ w v : Writer, w.Alike names v → Outcome.Alike names (x.outcome w) (y.outcome v)

namespace Writer.Alike

variable {names : Bool} {w v : Writer} (pages : w.Alike names v)

include pages

theorem write (s : String) : (w.write s).Alike names (v.write s) :=
  { pages with text := congrArg (· ++ s) pages.text }

theorem deeper : w.deeper.Alike names v.deeper :=
  { pages with depth := congrArg (· + 1) pages.depth }

theorem shallower : w.shallower.Alike names v.shallower :=
  { pages with depth := congrArg (· - 1) pages.depth }

theorem newline : w.newline.Alike names v.newline := by
  have indent : w.newline = w.write (String.ofList ('\n' :: List.replicate (2 * v.depth) ' ')) := by
    rw [← pages.depth]
    rfl
  rw [indent]
  exact pages.write _

theorem separator : w.separator.Alike names v.separator := by
  unfold Writer.separator
  rw [pages.pretty]
  split
  · exact pages.newline
  · exact pages.write _

theorem openBlock : w.openBlock.Alike names v.openBlock := by
  unfold Writer.openBlock
  rw [pages.pretty]
  split
  · exact (pages.write _).deeper.newline
  · exact pages.write _

theorem closeBlock (pretty : Bool) : (w.closeBlock pretty).Alike names (v.closeBlock pretty) := by
  unfold Writer.closeBlock
  split
  · exact pages.shallower.newline.write _
  · exact pages.write _

theorem leaveBlock (pretty : Bool) : (w.leaveBlock pretty).Alike names (v.leaveBlock pretty) := by
  unfold Writer.leaveBlock
  split
  · exact pages.shallower
  · exact pages

theorem withText {s t : String} (same : s = t) :
    Writer.Alike names { w with text := s } { v with text := t } :=
  { pages with text := same }

theorem place (name : Option String) (a b : Option Literal) (placeholder : String) :
    ((w.pushParam ⟨name, a⟩).write placeholder).Alike names
      ((v.pushParam ⟨name, b⟩).write placeholder) := by
  refine { pages.write placeholder with params := ?_ }
  simp only [Writer.write, Writer.pushParam, List.map_append, List.map_cons, pages.params]

theorem length_params : w.params.length = v.params.length := by
  rw [← List.length_map (f := (·.name)), pages.params, List.length_map]

theorem lookup_isSome (name : String) :
    (w.named.lookup name).isSome = (v.named.lookup name).isSome := by
  have known : ∀ l : List (String × Option Literal),
      (l.lookup name).isSome = (l.map (·.1)).contains name := by
    intro l
    induction l with
    | nil => rfl
    | cons entry rest ih =>
      rw [List.lookup_cons, List.map_cons, List.contains_cons]
      by_cases same : (name == entry.1) = true
      · simp [same]
      · simpa [same] using ih
  rw [known, known, pages.keys]

theorem isTaken : w.isTaken = v.isTaken := by
  funext name
  rw [Writer.isTaken, Writer.isTaken, pages.reserved, pages.lookup_isSome]

theorem generatedName (index : Nat) : w.generatedName index = v.generatedName index := by
  have length : w.named.length = v.named.length := by
    rw [← List.length_map (f := (·.1)), pages.keys, List.length_map]
  rw [Writer.generatedName, Writer.generatedName, pages.reserved, length, pages.isTaken]

/-- A name is entered in both books or in neither, unless values that differ are compared. -/
theorem enterName {name : String} {a b : Option Literal} (values : names = false → a = b) :
    Outcome.Alike names ((Context.enterName name a).outcome w) ((Context.enterName name b).outcome v) := by
  have known := pages.lookup_isSome name
  rw [Context.outcome_enterName, Context.outcome_enterName]
  rcases atW : w.named.lookup name with _ | x <;> rcases atV : v.named.lookup name with _ | y <;>
    rw [atW, atV] at known
  · refine .inl ⟨rfl, { pages with keys := ?_, named := fun fixed => ?_ }⟩
    · simp only [List.map_append, List.map_cons, pages.keys]
    · rw [pages.named fixed, values fixed]
  · cases known
  · cases known
  · cases names with
    | false =>
      rw [pages.named rfl, atV] at atW
      cases atW
      rw [values rfl]
      by_cases same : (x == b) = true
      · simp only [same, if_true]
        exact .inl ⟨rfl, pages⟩
      · simp only [same]
        exact .inl ⟨rfl, pages⟩
    | true =>
      dsimp only
      split <;> split
      · exact .inl ⟨rfl, pages⟩
      · exact .inr ⟨rfl, .inr ⟨_, rfl⟩⟩
      · exact .inr ⟨rfl, .inl ⟨_, rfl⟩⟩
      · exact .inl ⟨rfl, pages⟩

end Writer.Alike

namespace Writing.Alike

variable {names : Bool}

theorem pure_unit : Writing.Alike names (pure ()) (pure ()) :=
  fun _ _ pages => .inl ⟨rfl, pages⟩

theorem throw (e : Error) : Writing.Alike names (throw e) (throw e) :=
  fun _ _ pages => .inl ⟨rfl, pages⟩

theorem modify {f g : Writer → Writer} (each : ∀ {w v : Writer}, w.Alike names v → (f w).Alike names (g v)) :
    Writing.Alike names (modify f) (modify g) :=
  fun _ _ pages => .inl ⟨rfl, each pages⟩

theorem place (name : Option String) (a b : Option Literal) (placeholder : String) :
    Writing.Alike names (Context.place ⟨name, a⟩ placeholder) (Context.place ⟨name, b⟩ placeholder) :=
  fun _ _ pages => .inl ⟨rfl, pages.place name a b placeholder⟩

theorem bind {x y : Writing Error Unit} {f g : Unit → Writing Error Unit} (first : Writing.Alike names x y)
    (second : Writing.Alike names (f ()) (g ())) : Writing.Alike names (x >>= f) (y >>= g) := by
  intro w v pages
  have atFirst := first w v pages
  rw [Writing.outcome_bind, Writing.outcome_bind]
  generalize x.outcome w = r, y.outcome v = s at atFirst
  obtain ⟨e | _, w'⟩ := r <;> obtain ⟨e' | _, v'⟩ := s
  · exact atFirst
  · obtain ⟨same, _⟩ | ⟨named, _⟩ := atFirst
    · cases same
    · exact .inr ⟨named, .inl ⟨e, rfl⟩⟩
  · obtain ⟨same, _⟩ | ⟨named, _⟩ := atFirst
    · cases same
    · exact .inr ⟨named, .inr ⟨e', rfl⟩⟩
  · obtain ⟨_, pages'⟩ | ⟨_, ⟨_, failed⟩ | ⟨_, failed⟩⟩ := atFirst
    · exact second w' v' pages'
    · cases failed
    · cases failed

theorem nested {x y : Writing Error Unit} (body : Writing.Alike names x y) :
    Writing.Alike names (Writing.nested x) (Writing.nested y) := by
  intro w v pages
  have atBody := body _ _ pages.openBlock
  rw [Writing.outcome_nested, Writing.outcome_nested, pages.pretty]
  generalize x.outcome w.openBlock = r, y.outcome v.openBlock = s at atBody
  obtain ⟨e | _, w'⟩ := r <;> obtain ⟨e' | _, v'⟩ := s
  · exact atBody.imp (fun both => ⟨both.1, both.2.leaveBlock _⟩) id
  · exact atBody.imp (fun both => by cases both.1) id
  · exact atBody.imp (fun both => by cases both.1) id
  · exact atBody.imp (fun both => ⟨both.1, both.2.closeBlock _⟩) id

theorem captured (change : String → String) {x y : Writing Error Unit} (body : Writing.Alike names x y) :
    Writing.Alike names (Writing.captured change x) (Writing.captured change y) := by
  intro w v pages
  have atBody := body _ _ (pages.withText (rfl : "" = ""))
  rw [Writing.outcome_captured, Writing.outcome_captured]
  generalize x.outcome { w with text := "" } = r, y.outcome { v with text := "" } = s at atBody
  obtain ⟨e | _, w'⟩ := r <;> obtain ⟨e' | _, v'⟩ := s
  · exact atBody.imp (fun both => ⟨both.1, both.2.withText (congrArg₂ (· ++ ·) pages.text both.2.text)⟩) id
  · exact atBody.imp (fun both => by cases both.1) id
  · exact atBody.imp (fun both => by cases both.1) id
  · refine atBody.imp (fun both => ⟨both.1, both.2.withText ?_⟩) id
    exact congrArg₂ (· ++ change ·) pages.text both.2.text

end Writing.Alike

/-- Parameters that differ in their values are bound alike. -/
theorem Context.bindParam_alike (ctx : Context) {p q : Param} (kinds : p.kind = q.kind)
    (values : p.value.isSome = q.value.isSome) :
    Writing.Alike (decide (ctx.options.placeholder = .named)) (ctx.bindParam p) (ctx.bindParam q) := by
  have named : p.name? = q.name? := by rw [Param.name?, Param.name?, kinds]
  intro w v pages
  cases atP : p.value with
  | none =>
    have atQ : q.value = none := by simpa [atP] using values.symm
    unfold Context.bindParam
    rw [atP, atQ, ← kinds]
    cases p.kind with
    | named name =>
      exact Writing.Alike.bind (fun _ _ pages => pages.enterName fun _ => rfl)
        (.place _ _ _ _) w v pages
    | ordinal index => exact .inl ⟨rfl, pages⟩
    | anonymous => exact .inl ⟨rfl, pages⟩
  | some a =>
    obtain ⟨b, atQ⟩ := Option.isSome_iff_exists.mp (by rw [← values, atP]; rfl : q.value.isSome = true)
    simp only [ctx.outcome_bindParam atP, ctx.outcome_bindParam atQ, named, pages.length_params,
      pages.generatedName]
    generalize ctx.options.placeholder = placeholder at pages
    cases placeholder with
    | positional => exact .inl ⟨rfl, pages.place _ _ _ _⟩
    | ordinal => exact .inl ⟨rfl, pages.place _ _ _ _⟩
    | named =>
      exact Writing.Alike.bind (fun _ _ pages => pages.enterName fun fixed => by cases fixed)
        (.place _ _ _ _) w v pages

/-- Documents that differ in the values of parameters only are written alike when values are bound. -/
theorem Doc.Alike.write {d e : Doc} (alike : d.Alike e) (ctx : Context)
    (bind : ctx.options.mode = .bind) :
    Writing.Alike (decide (ctx.options.placeholder = .named)) (d.write ctx) (e.write ctx) := by
  induction alike with
  | empty => exact .pure_unit
  | text s => exact .modify fun pages => pages.write s
  | gap => exact .modify fun pages => pages.separator
  | append _ _ first second => exact .bind first second
  | block _ body => exact .nested body
  | require construct =>
    unfold Doc.write
    split
    · exact .pure_unit
    · exact .throw _
  | fail error => exact .throw error
  | note event => exact .modify fun pages => { pages with }
  | param kinds values =>
    unfold Doc.write
    rw [if_pos bind, if_pos bind]
    exact ctx.bindParam_alike kinds values
  | afterMinus _ body => exact .captured _ body

end SqlTree

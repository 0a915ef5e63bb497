import SqlTree.Proofs.Fragments

/-!
What may stand right behind a placeholder. Documents are followed fragment by fragment, with a flag that
says whether a placeholder stands right before; a fragment that runs into one is refused.
-/
namespace SqlTree

namespace Text

/-- The characters with which text sets itself apart from a placeholder before it. -/
def separators : List Char :=
  [' ', '\n', ',', ')', ']']

def isSeparating (s : String) : Bool :=
  match s.toList with
  | c :: _ => separators.contains c
  | [] => false

/-- Whether a placeholder stands right before what follows a fragment, unless the fragment itself runs
into one. -/
def touch (touching : Bool) (s : String) : Option Bool :=
  if s = "" then some touching else if touching && !isSeparating s then none else some false

/-- The same for fragments with a placeholder between any two neighbours. -/
def touchAll (touching : Bool) : List String → Option Bool
  | [] => some touching
  | [f] => touch touching f
  | f :: g :: rest => (touch touching f).bind fun _ => touchAll true (g :: rest)

theorem isSeparating.ne_empty {s : String} (separates : isSeparating s = true) : s ≠ "" := by
  rintro rfl
  cases separates

theorem isSeparating_append {s : String} (some : s ≠ "") (t : String) :
    isSeparating (s ++ t) = isSeparating s := by
  unfold isSeparating
  rw [String.toList_append]
  cases cut : s.toList with
  | nil => exact absurd (String.toList_eq_nil_iff.mp cut) some
  | cons c rest => rfl

theorem isSeparating.append {s : String} (separates : isSeparating s = true) (t : String) :
    isSeparating (s ++ t) = true :=
  (isSeparating_append (isSeparating.ne_empty separates) t).trans separates

theorem touch_separating {s : String} (separates : isSeparating s = true) (touching : Bool) :
    touch touching s = some false := by
  simp [touch, isSeparating.ne_empty separates, separates]

theorem touch_clear (s : String) : touch false s = some false := by
  simp [touch]

theorem touch_append (touching : Bool) (s t : String) :
    touch touching (s ++ t) = (touch touching s).bind fun reached => touch reached t := by
  by_cases empty : s = ""
  · subst empty
    rw [String.empty_append]
    rfl
  · have some : s ++ t ≠ "" := fun none => empty (String.append_eq_empty_iff.mp none).1
    unfold touch
    rw [if_neg some, if_neg empty, isSeparating_append empty t]
    split <;> simp

theorem touchAll_welded (touching : Bool) {first second : List String} (left : first ≠ [])
    (right : second ≠ []) :
    touchAll touching (welded first second) =
      (touchAll touching first).bind fun reached => touchAll reached second := by
  induction first generalizing touching with
  | nil => exact absurd rfl left
  | cons f rest ih =>
    cases rest with
    | cons g rest =>
      have others := ih true (by simp)
      cases weld : welded (g :: rest) second with
      | nil =>
        rw [weld] at others
        cases rest <;> cases second <;> simp_all [welded]
      | cons h others' =>
        rw [weld] at others
        simp only [welded, weld, touchAll, others, Option.bind_assoc]
    | nil =>
      cases second with
      | nil => exact absurd rfl right
      | cons g rest =>
        cases rest with
        | nil => exact touch_append touching f g
        | cons h rest =>
          simp only [welded, touchAll, touch_append, Option.bind_assoc]

/-- Where no fragment is refused, those behind a placeholder are empty or separating. -/
theorem touchAll_tail {touching reached : Bool} {fragments : List String}
    (passed : touchAll touching fragments = some reached) :
    ∀ f ∈ fragments.tail, f = "" ∨ isSeparating f = true := by
  induction fragments generalizing touching with
  | nil => nofun
  | cons f rest ih =>
    cases rest with
    | nil => nofun
    | cons g rest =>
      obtain ⟨_, _, onward⟩ := Option.bind_eq_some_iff.mp passed
      have first : g = "" ∨ isSeparating g = true := by
        by_contra! runs
        have refused : touch true g = none := by simp [touch, runs.1, runs.2]
        cases rest with
        | nil =>
          rw [touchAll, refused] at onward
          cases onward
        | cons =>
          rw [touchAll, refused] at onward
          cases onward
      exact List.forall_mem_cons.mpr ⟨first, ih onward⟩

end Text

open Text

namespace Layout

theorem isSeparating_newline (l : Layout) : isSeparating l.newline = true := by
  simp only [isSeparating, Layout.newline, String.toList_ofList]
  rfl

theorem isSeparating_separator (l : Layout) : isSeparating l.separator = true := by
  unfold Layout.separator
  split
  · exact l.isSeparating_newline
  · rfl

theorem isSeparating_closing (l : Layout) : isSeparating l.closing = true := by
  unfold Layout.closing
  split
  · exact isSeparating.append l.isSeparating_newline _
  · rfl

end Layout

theorem Doc.fragments_ne_nil (d : Doc) (l : Layout) : d.fragments l ≠ [] := by
  intro none
  have length := d.length_fragments l
  rw [none] at length
  cases length

/-- A document runs into no placeholder. The flags say whether one may stand right before it, and whether
one may stand right before what follows it. -/
def Doc.Apart (before after : Bool) (d : Doc) : Prop :=
  ∀ (l : Layout) (touching : Bool), touching ≤ before →
    ∃ reached ≤ after, touchAll touching (d.fragments l) = some reached

namespace Doc.Apart

variable {a b d : Doc} {before middle after : Bool} {s : String}

theorem append (first : a.Apart before middle) (second : b.Apart middle after) :
    (a ++ b).Apart before after := by
  intro l touching start
  obtain ⟨reached, bound, ran⟩ := first l touching start
  obtain ⟨final, bound', ran'⟩ := second l reached bound
  refine ⟨final, bound', ?_⟩
  change touchAll touching (welded (a.fragments l) (b.fragments l)) = _
  rw [touchAll_welded touching (a.fragments_ne_nil l) (b.fragments_ne_nil l), ran]
  exact ran'

/-- What may follow a placeholder may follow anything, and what may stand before anything may stand
before what follows a placeholder. -/
theorem mono {before' after' : Bool} (apart : d.Apart before after) (start : before' ≤ before)
    (stop : after ≤ after') : d.Apart before' after' := by
  intro l touching bound
  obtain ⟨reached, bound', ran⟩ := apart l touching (Bool.le_trans bound start)
  exact ⟨reached, Bool.le_trans bound' stop, ran⟩

theorem loosen (apart : d.Apart before false) : d.Apart before true :=
  apart.mono (Bool.le_refl _) (Bool.le_true _)

/-- A document without parameters sets itself apart from what follows it. -/
theorem plain (none : d.params = []) : d.Apart false false := by
  intro l touching start
  obtain rfl : touching = false := Bool.eq_false_of_le_false start
  have length := d.length_fragments l
  rw [none] at length
  obtain ⟨s, single⟩ := List.length_eq_one_iff.mp length
  rw [single]
  exact ⟨false, Bool.le_refl _, touch_clear s⟩

theorem separating (separates : isSeparating s = true) : (Doc.text s).Apart true after := fun _ touching _ =>
  ⟨false, Bool.false_le _, touch_separating separates touching⟩

/-- A document that writes nothing. -/
theorem silent (nothing : ∀ l, d.fragments l = [""]) : d.Apart before before := by
  intro l touching start
  rw [nothing l]
  exact ⟨touching, start, rfl⟩

theorem empty : Doc.empty.Apart before before :=
  silent fun _ => rfl

theorem require {construct : Construct} : (Doc.require construct).Apart before before :=
  silent fun _ => rfl

theorem fail {error : Error} : (Doc.fail error).Apart before before :=
  silent fun _ => rfl

theorem note {event : Event} : (Doc.note event).Apart before before :=
  silent fun _ => rfl

theorem gap : Doc.gap.Apart true after := fun l touching _ =>
  ⟨false, Bool.false_le _, touch_separating l.isSeparating_separator touching⟩

theorem param {p : Param} {inline : Doc} : (Doc.param p inline).Apart false true := fun _ touching start => by
  obtain rfl : touching = false := Bool.eq_false_of_le_false start
  exact ⟨true, Bool.le_refl _, rfl⟩

/-- What stands between brackets sets itself apart from what follows it. -/
theorem framed {opening closing : String} (separates : isSeparating closing = true) {fragments : List String}
    (filled : fragments ≠ []) {reached : Bool} (ran : touchAll false fragments = some reached) :
    touchAll false (Text.framed opening closing fragments) = some false := by
  have first : welded [opening] fragments ≠ [] := by
    cases fragments with
    | nil => exact absurd rfl filled
    | cons => simp [welded]
  rw [Text.framed, touchAll_welded _ first (by simp), touchAll_welded _ (by simp) filled, touchAll,
    touch_clear, Option.bind_some, ran]
  exact touch_separating separates reached

theorem block (body : d.Apart false true) : (Doc.block d).Apart false false := by
  intro l touching start
  obtain rfl : touching = false := Bool.eq_false_of_le_false start
  obtain ⟨reached, _, ran⟩ := body l.inner false (Bool.le_refl _)
  exact ⟨false, Bool.le_refl _, framed l.isSeparating_closing (d.fragments_ne_nil _) ran⟩

theorem afterMinus (body : d.Apart false true) : (Doc.afterMinus d).Apart false true := by
  intro l touching start
  obtain rfl : touching = false := Bool.eq_false_of_le_false start
  obtain ⟨reached, bound, ran⟩ := body l false (Bool.le_refl _)
  have some := d.fragments_ne_nil l
  change ∃ reached ≤ true, touchAll false (guarded (d.fragments l)) = _
  cases cut : d.fragments l with
  | nil => exact absurd cut some
  | cons f rest =>
    rw [cut] at ran some
    -- the parentheses hang on the first fragment, which stands before every placeholder
    rw [guarded]
    split
    · exact ⟨false, Bool.false_le _, framed rfl some ran⟩
    · exact ⟨reached, bound, ran⟩

theorem when {condition : Bool} (apart : d.Apart before before) :
    (Doc.when condition d).Apart before before := by
  cases condition with
  | true => exact apart
  | false => exact empty

theorem ofOption {α : Type} {value : Option α} {f : α → Doc} (apart : ∀ x ∈ value, (f x).Apart before before) :
    (Doc.ofOption value f).Apart before before := by
  cases value with
  | none => exact empty
  | some x => exact apart x rfl

theorem concat {α : Type} {items : List α} {f : α → Doc} (apart : ∀ x ∈ items, (f x).Apart before before) :
    (Doc.concat (items.map f)).Apart before before := by
  induction items with
  | nil => exact empty
  | cons x rest ih =>
    have others := ih fun y member => apart y (List.mem_cons_of_mem _ member)
    exact append (apart x (List.mem_cons_self ..)) others

/-- Text before a document. -/
theorem lead (apart : d.Apart false after) : (Doc.text s ++ d).Apart false after :=
  append (plain rfl) apart

/-- A document right behind separating text. -/
theorem behind (separates : isSeparating s = true) (apart : d.Apart false after) :
    (Doc.text s ++ d).Apart true after :=
  append (separating separates) apart

/-- Two documents with separating text between them. -/
theorem spaced (first : a.Apart before true) (separates : isSeparating s = true)
    (second : b.Apart false after) : (a ++ Doc.text s ++ b).Apart before after :=
  append (append first (separating separates)) second

/-- A document with another behind it that may follow a placeholder. -/
theorem trail (first : a.Apart before true) (second : b.Apart true true) : (a ++ b).Apart before true :=
  append first second

/-- A document behind a break between clauses. -/
theorem onward (apart : d.Apart false after) : (Doc.gap ++ d).Apart true after :=
  append gap apart

/-- A clause: a break, its keyword and a document. -/
theorem clause (apart : d.Apart false after) : (Doc.clause s ++ d).Apart true after :=
  append (append gap (plain rfl)) apart

theorem parens (body : d.Apart false true) : (Doc.parens d).Apart false after :=
  append (lead body) (separating rfl)

theorem separated (separates : isSeparating s = true) {docs : List Doc} (apart : ∀ d ∈ docs, d.Apart false true) :
    (Doc.separated (.text s) docs).Apart false true := by
  induction docs with
  | nil => exact loosen empty
  | cons d rest ih =>
    cases rest with
    | nil => exact apart d (List.mem_cons_self ..)
    | cons e rest =>
      have others := ih fun y member => apart y (List.mem_cons_of_mem _ member)
      exact spaced (apart d (List.mem_cons_self ..)) separates others

end Doc.Apart

end SqlTree

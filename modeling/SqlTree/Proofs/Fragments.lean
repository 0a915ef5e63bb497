import SqlTree.Proofs.BoundOrder

/-!
Documents as fragments of text with a parameter between any two neighbours. The fragments do not depend on
how values are bound: a text with bound values is woven from them and from the placeholders.
-/
namespace SqlTree

namespace Text

/-- The fragments of two texts one after the other: the last of the first and the first of the second
become one. -/
def welded : List String → List String → List String
  | [], second => second
  | f :: g :: rest, second => f :: welded (g :: rest) second
  | [f], [] => [f]
  | [f], g :: rest => (f ++ g) :: rest

/-- The text of fragments with a place between any two neighbours. -/
def woven : List String → List String → String
  | f :: rest, place :: places => f ++ place ++ woven rest places
  | f :: _, [] => f
  | [], _ => ""

/-- The fragments of a text between two others. -/
def framed (before after : String) (fragments : List String) : List String :=
  welded (welded [before] fragments) [after]

def startsMinus (s : String) : Bool :=
  s.toList.head? == some '-'

/-- A text that begins, and not with a minus sign. -/
def isUnsigned (s : String) : Bool :=
  match s.toList with
  | c :: _ => c ≠ '-'
  | [] => false

/-- The fragments of a text that stands in parentheses when it begins with a minus sign. -/
def guarded : List String → List String
  | [] => []
  | f :: rest => if startsMinus f then framed "(" ")" (f :: rest) else f :: rest

theorem length_welded {first second : List String} {m n : Nat} (left : first.length = m + 1)
    (right : second.length = n + 1) : (welded first second).length = m + n + 1 := by
  induction first generalizing m with
  | nil => cases left
  | cons f rest ih =>
    cases rest with
    | nil =>
      cases second with
      | nil => cases right
      | cons g others =>
        simp only [welded, List.length_cons, List.length_nil] at left right ⊢
        omega
    | cons g others =>
      cases m with
      | zero => cases left
      | succ m =>
        have shorter := ih (Nat.succ.inj left)
        simp only [welded, List.length_cons] at shorter ⊢
        omega

/-- A welded text is the two texts one after the other, each with its own places. -/
theorem woven_welded {first second places others : List String}
    (left : first.length = places.length + 1) (right : second ≠ []) :
    woven (welded first second) (places ++ others) = woven first places ++ woven second others := by
  induction first generalizing places with
  | nil => cases left
  | cons f rest ih =>
    cases rest with
    | nil =>
      obtain rfl : places = [] := by simpa using left.symm
      cases second with
      | nil => exact absurd rfl right
      | cons g rest => cases others <;> simp [welded, woven, String.append_assoc]
    | cons g rest =>
      cases places with
      | nil => cases left
      | cons place places =>
        have inner : woven (welded (g :: rest) second) (places ++ others) = _ := ih (Nat.succ.inj left)
        simp only [welded, List.cons_append, woven, inner, String.append_assoc]

theorem length_framed (before after : String) {fragments : List String} {n : Nat}
    (length : fragments.length = n + 1) : (framed before after fragments).length = n + 1 := by
  have first := length_welded (m := 0) (rfl : [before].length = 0 + 1) length
  rw [Nat.zero_add] at first
  exact length_welded (n := 0) first rfl

theorem woven_framed (before after : String) {fragments places : List String}
    (length : fragments.length = places.length + 1) :
    woven (framed before after fragments) places = before ++ woven fragments places ++ after := by
  have some : fragments ≠ [] := by
    rintro rfl
    cases length
  have first : (welded [before] fragments).length = places.length + 1 := by
    have counted := length_welded (m := 0) (rfl : [before].length = 0 + 1) length
    rwa [Nat.zero_add] at counted
  have inner : woven (welded [before] fragments) ([] ++ places) = before ++ woven fragments places :=
    woven_welded rfl some
  have outer : woven (framed before after fragments) (places ++ []) =
      woven (welded [before] fragments) places ++ after :=
    woven_welded first (by simp)
  rw [List.append_nil] at outer
  rw [outer]
  exact congrArg (· ++ after) inner

theorem guardMinus_eq (s : String) : Doc.guardMinus s = if startsMinus s then "(" ++ s ++ ")" else s := by
  unfold Doc.guardMinus startsMinus
  cases s.toList with
  | nil => rfl
  | cons c rest =>
    by_cases minus : c = '-'
    · subst minus
      rfl
    · simp [minus]

theorem startsMinus_append {s : String} (t : String) (some : s ≠ "") :
    startsMinus (s ++ t) = startsMinus s := by
  unfold startsMinus
  rw [String.toList_append]
  cases cut : s.toList with
  | nil => exact absurd (String.toList_eq_nil_iff.mp cut) some
  | cons c rest => rfl

theorem isUnsigned.ne_empty {s : String} (unsigned : isUnsigned s = true) : s ≠ "" := by
  rintro rfl
  cases unsigned

theorem isUnsigned.startsMinus {s : String} (unsigned : isUnsigned s = true) : startsMinus s = false := by
  unfold isUnsigned at unsigned
  unfold Text.startsMinus
  cases cut : s.toList with
  | nil => rfl
  | cons c rest =>
    rw [cut] at unsigned
    simpa using unsigned

/-- Where no place begins with a minus sign, the first fragment decides how the whole text begins. -/
theorem startsMinus_woven (f : String) (rest : List String) {places : List String}
    (unsigned : ∀ place ∈ places, isUnsigned place = true) :
    startsMinus (woven (f :: rest) places) = startsMinus f := by
  cases places with
  | nil => rfl
  | cons place places =>
    have first := unsigned place (List.mem_cons_self ..)
    rw [woven, String.append_assoc]
    by_cases some : f = ""
    · subst some
      rw [String.empty_append, startsMinus_append _ (isUnsigned.ne_empty first),
        isUnsigned.startsMinus first]
      rfl
    · exact startsMinus_append _ some

theorem length_guarded {fragments : List String} {n : Nat} (length : fragments.length = n + 1) :
    (guarded fragments).length = n + 1 := by
  cases fragments with
  | nil => cases length
  | cons f rest =>
    rw [guarded]
    split
    · exact length_framed _ _ length
    · exact length

theorem woven_guarded {fragments places : List String} (length : fragments.length = places.length + 1)
    (unsigned : ∀ place ∈ places, isUnsigned place = true) :
    woven (guarded fragments) places = Doc.guardMinus (woven fragments places) := by
  cases fragments with
  | nil => cases length
  | cons f rest =>
    rw [guardMinus_eq, startsMinus_woven f rest unsigned, guarded]
    split
    · exact woven_framed _ _ length
    · rfl

end Text

/-- What the text that is written depends on besides the document: whether the layout is pretty, and how
deep the writer is in blocks. -/
structure Layout where
  pretty : Bool
  depth : Nat

namespace Layout

def newline (l : Layout) : String :=
  String.ofList ('\n' :: List.replicate (2 * l.depth) ' ')

/-- The break between two clauses. -/
def separator (l : Layout) : String :=
  if l.pretty then l.newline else " "

/-- The layout inside a block. -/
def inner (l : Layout) : Layout :=
  if l.pretty then { l with depth := l.depth + 1 } else l

def opening (l : Layout) : String :=
  if l.pretty then "(" ++ l.inner.newline else "("

def closing (l : Layout) : String :=
  if l.pretty then l.newline ++ ")" else ")"

end Layout

namespace Writer

def layout (w : Writer) : Layout :=
  ⟨w.pretty, w.depth⟩

theorem separator_eq (w : Writer) : w.separator = w.write w.layout.separator := by
  unfold Writer.separator Layout.separator
  change (if w.pretty then _ else _) = w.write (if w.pretty then _ else _)
  split <;> rfl

theorem text_openBlock (w : Writer) : w.openBlock.text = w.text ++ w.layout.opening := by
  unfold Writer.openBlock Layout.opening Layout.inner
  change (if w.pretty then _ else _ : Writer).text = w.text ++ (if w.pretty then _ else _)
  split
  · rename_i pretty
    simp only [layout, pretty, if_true, ← String.append_assoc]
    rfl
  · rfl

theorem layout_openBlock (w : Writer) : w.openBlock.layout = w.layout.inner := by
  unfold Writer.openBlock Layout.inner
  change (if w.pretty then _ else _ : Writer).layout = if w.pretty then _ else _
  split <;> rfl

/-- A block is closed on the layout on which it was opened. -/
theorem text_closeBlock {w u : Writer} (same : u.layout = w.layout.inner) :
    (u.closeBlock w.pretty).text = u.text ++ w.layout.closing := by
  unfold Writer.closeBlock Layout.closing
  change (if w.pretty then _ else _ : Writer).text = u.text ++ (if w.pretty then _ else _)
  split
  · rename_i pretty
    have depth : u.depth = w.depth + 1 := by
      simpa [Layout.inner, layout, pretty] using congrArg Layout.depth same
    simp only [Writer.shallower, Writer.newline, Writer.write, Layout.newline, layout, depth,
      Nat.add_sub_cancel, String.append_assoc]
  · rfl

theorem layout_closeBlock {w u : Writer} (same : u.layout = w.layout.inner) :
    (u.closeBlock w.pretty).layout = w.layout := by
  unfold Writer.closeBlock
  unfold Layout.inner at same
  change u.layout = if w.pretty then _ else _ at same
  split
  · rename_i pretty
    rw [if_pos pretty] at same
    obtain ⟨flag, depth⟩ := Layout.mk.inj same
    simp only [layout, Writer.shallower, Writer.newline, Writer.write, flag, depth, Nat.add_sub_cancel]
  · rename_i pretty
    rwa [if_neg pretty] at same

end Writer

/-- The fragments of a document in a layout: the texts before, between and behind its parameters. -/
def Doc.fragments (l : Layout) : Doc → List String
  | .empty | .require _ | .fail _ | .note _ => [""]
  | .text s => [s]
  | .gap => [l.separator]
  | .append first second => Text.welded (first.fragments l) (second.fragments l)
  | .block body => Text.framed l.opening l.closing (body.fragments l.inner)
  | .param _ _ => ["", ""]
  | .afterMinus body => Text.guarded (body.fragments l)

/-- There is one fragment more than there are parameters. -/
theorem Doc.length_fragments (d : Doc) (l : Layout) : (d.fragments l).length = d.params.length + 1 := by
  induction d generalizing l with
  | empty | text | gap | require | fail | note | param => rfl
  | append first second left right =>
    rw [Doc.fragments, Text.length_welded (left l) (right l), Doc.params, List.length_append]
  | block body ih => exact Text.length_framed _ _ (ih l.inner)
  | afterMinus body ih => exact Text.length_guarded (ih l)

end SqlTree

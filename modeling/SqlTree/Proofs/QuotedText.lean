import Mathlib.Logic.Function.Defs
import SqlTree.Quoter

namespace SqlTree

/-- An identifier that is written without quotes is made of word characters. -/
theorem Identifier.word_of_bare {i : Identifier} (bare : ¬(i.style ≠ .none || needsQuoting i.value) = true) :
    i.value.toList.all Text.isWordChar = true := by
  simp only [needsQuoting, Bool.or_eq_true, not_or] at bare
  simpa using bare.2.1.2

namespace Text

/-- What stands before the first closing delimiter that is not doubled, and what stands behind it. Two
delimiters are one that belongs to the text; `half` says that the first of two may just have been read. -/
def untilClosed (close : Char) : (half : Bool) → List Char → Option (List Char × List Char)
  | false, [] => none
  | true, [] => some ([], [])
  | false, c :: rest =>
    if c = close then untilClosed close true rest
    else (untilClosed close false rest).map fun cut => (c :: cut.1, cut.2)
  | true, c :: rest =>
    if c = close then (untilClosed close false rest).map fun cut => (c :: cut.1, cut.2)
    else some ([], c :: rest)

/-- A string literal at the front of a text: the text that it stands for, and what stands behind it. -/
def readString : List Char → Option (String × List Char)
  | '\x27' :: rest => (untilClosed '\x27' false rest).map fun cut => (String.ofList cut.1, cut.2)
  | _ => none

/-- What was doubled between delimiters is read as it was. -/
theorem untilClosed_doubled (close : Char) (cs : List Char) {rest : List Char}
    (single : rest.head? ≠ some close) :
    untilClosed close false (doubled close cs ++ close :: rest) = some (cs, rest) := by
  induction cs with
  | nil =>
    cases rest with
    | nil => simp [doubled, untilClosed]
    | cons d rest =>
      have other : d ≠ close := by rintro rfl; exact single rfl
      simp [doubled, untilClosed, other]
  | cons c cs ih =>
    by_cases same : c = close
    · subst same
      simp [doubled, untilClosed, ih]
    · simp [doubled, untilClosed, same, ih]

/-- Only what was doubled is read. A delimiter that has just been read and may be the first of two belongs to
the text that is read. -/
theorem eq_of_untilClosed {close : Char} {half : Bool} {cs before rest : List Char}
    (found : untilClosed close half cs = some (before, rest)) :
    (if half then close :: cs else cs) = doubled close before ++ close :: rest ∧
      rest.head? ≠ some close := by
  fun_induction untilClosed close half cs generalizing before with
  | case1 => cases found
  | case2 =>
    cases found
    exact ⟨rfl, nofun⟩
  | case3 cs ih => exact ih found
  | case4 c cs other ih =>
    obtain ⟨⟨inner, _⟩, within, same⟩ := Option.map_eq_some_iff.mp found
    cases same
    obtain ⟨written, single⟩ := ih within
    refine ⟨?_, single⟩
    simpa [doubled, other] using written
  | case5 cs ih =>
    obtain ⟨⟨inner, _⟩, within, same⟩ := Option.map_eq_some_iff.mp found
    cases same
    obtain ⟨written, single⟩ := ih within
    refine ⟨?_, single⟩
    simpa [doubled] using written
  | case6 c cs other =>
    cases found
    exact ⟨rfl, by simpa using other⟩

theorem length_untilClosed {close : Char} {half : Bool} {cs : List Char} {cut : List Char × List Char}
    (found : untilClosed close half cs = some cut) : cut.2.length ≤ cs.length := by
  have written := congrArg List.length (eq_of_untilClosed found).1
  cases half with
  | false =>
    simp only [Bool.false_eq_true, if_false, List.length_append, List.length_cons] at written
    omega
  | true =>
    simp only [if_true, List.length_append, List.length_cons] at written
    omega

/-- A quoted text with its delimiters apart, in front of a following text. -/
theorem toList_quoted_append (opening close : Char) (s : String) (rest : List Char) :
    (quoted opening close s).toList ++ rest = opening :: (doubled close s.toList ++ close :: rest) := by
  simp [quoted]

/-- A string literal is read from its written form, with what stands behind it, and from nothing else. -/
theorem readString_eq_some_iff {cs following : List Char} {t : String} :
    readString cs = some (t, following) ↔
      cs = (quoteString t).toList ++ following ∧ following.head? ≠ some '\x27' := by
  rw [quoteString, toList_quoted_append]
  constructor
  · intro found
    unfold readString at found
    split at found
    · obtain ⟨⟨inner, _⟩, within, same⟩ := Option.map_eq_some_iff.mp found
      cases same
      obtain ⟨written, single⟩ := eq_of_untilClosed within
      refine ⟨?_, single⟩
      simpa using written
    · cases found
  · rintro ⟨rfl, single⟩
    rw [readString, untilClosed_doubled _ _ single]
    simp

/-- No two texts are written alike as string literals. -/
theorem quoteString_injective : Function.Injective quoteString := by
  intro s t same
  have read : ∀ u, readString (quoteString u).toList = some (u, []) := fun u =>
    readString_eq_some_iff.mpr ⟨(List.append_nil _).symm, nofun⟩
  have again := read s
  rw [same, read t] at again
  exact (congrArg Prod.fst (Option.some.inj again)).symm

end Text

end SqlTree

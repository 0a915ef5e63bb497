import SqlTree.Proofs.Lexemes
import SqlTree.Proofs.QuotedText

namespace SqlTree

/-- A name as a reader finds it. -/
structure NameToken where
  value : String
  quoted : Bool
  deriving DecidableEq, Repr

namespace Quoter

/-- Takes one name from the front of a text: in quotes when it begins with the opening delimiter, a run of
word characters otherwise. -/
def readName (q : Quoter) : List Char → Option (NameToken × List Char)
  | [] => none
  | c :: rest =>
    if c = q.opening then
      (Text.untilClosed q.closing false rest).map fun cut => (⟨String.ofList cut.1, true⟩, cut.2)
    else if Text.isWordChar c then
      some (⟨String.ofList (c :: rest.takeWhile Text.isWordChar), false⟩, rest.dropWhile Text.isWordChar)
    else none

theorem length_readName {q : Quoter} {cs : List Char} {name : NameToken} {rest : List Char}
    (found : q.readName cs = some (name, rest)) : rest.length < cs.length := by
  cases cs with
  | nil => cases found
  | cons c cs =>
    rw [readName] at found
    split at found
    · obtain ⟨cut, within, same⟩ := Option.map_eq_some_iff.mp found
      cases same
      exact Nat.lt_succ_of_le (Text.length_untilClosed within)
    · split at found
      · cases found
        exact Nat.lt_succ_of_le (List.dropWhile_suffix _).length_le
      · cases found

/-- Takes names from the front of a text as long as there is a dot behind them. -/
def readDotted (q : Quoter) (cs : List Char) : Option (List NameToken × List Char) :=
  match found : q.readName cs with
  | none => none
  | some (name, '.' :: rest) =>
    have : rest.length < cs.length := Nat.lt_of_succ_lt (length_readName found)
    (q.readDotted rest).map fun read => (name :: read.1, read.2)
  | some (name, rest) => some ([name], rest)
termination_by cs.length

end Quoter

/-- What is written for an identifier: a name in quotes, or a bare one. -/
def Identifier.token (i : Identifier) : NameToken :=
  ⟨i.value, decide (i.style ≠ .none) || needsQuoting i.value⟩

namespace Quoter

variable {q : Quoter} {rest : List Char}

theorem readDotted_last {cs : List Char} {name : NameToken} (found : q.readName cs = some (name, rest))
    (ends : rest.head? ≠ some '.') : q.readDotted cs = some ([name], rest) := by
  rw [readDotted]
  split
  · rename_i missing
    rw [missing] at found
    cases found
  · rename_i same
    rw [same] at found
    cases found
    exact absurd rfl ends
  · rename_i same
    rw [same] at found
    cases found
    rfl

theorem readDotted_dot {cs : List Char} {name : NameToken} (found : q.readName cs = some (name, '.' :: rest)) :
    q.readDotted cs = (q.readDotted rest).map fun read => (name :: read.1, read.2) := by
  rw [readDotted]
  split
  · rename_i missing
    rw [missing] at found
    cases found
  · rename_i same
    rw [same] at found
    cases found
    rfl
  · rename_i other same
    rw [same] at found
    cases found
    exact absurd rfl (other rest)

theorem readName_quote (value : String) (single : rest.head? ≠ some q.closing) :
    q.readName ((q.quote value).toList ++ rest) = some (⟨value, true⟩, rest) := by
  rw [quote, Text.toList_quoted_append, readName, if_pos rfl, Text.untilClosed_doubled _ _ single]
  simp

theorem readName_word (opening : Text.isWordChar q.opening = false) {word : String} (begun : word ≠ "")
    (words : word.toList.all Text.isWordChar = true) (ends : ∀ c ∈ rest.head?, Text.isWordChar c = false) :
    q.readName (word.toList ++ rest) = some (⟨word, false⟩, rest) := by
  cases cut : word.toList with
  | nil => exact absurd (String.toList_eq_nil_iff.mp cut) begun
  | cons c cs =>
    rw [cut, List.all_cons, Bool.and_eq_true] at words
    have other : c ≠ q.opening := by
      rintro rfl
      rw [opening] at words
      cases words.1
    have each : ∀ d ∈ cs, Text.isWordChar d = true := List.all_eq_true.mp words.2
    have stops : rest.takeWhile Text.isWordChar = [] ∧ rest.dropWhile Text.isWordChar = rest := by
      cases rest with
      | nil => exact ⟨rfl, rfl⟩
      | cons d rest => simp [ends d rfl]
    rw [List.cons_append, readName, if_neg other, if_pos words.1, List.takeWhile_append_of_pos each,
      List.dropWhile_append_of_pos each, stops.1, stops.2, List.append_nil, ← cut, String.ofList_toList]

/-- An identifier is read from the front of a text in front of anything that does not go on with it. -/
theorem readName_identifier (opening : Text.isWordChar q.opening = false) {i : Identifier} (valid : i.Valid)
    (ends : ∀ c ∈ rest.head?, Text.isWordChar c = false ∧ c ≠ q.closing) :
    q.readName ((q.quoteIfNeeded i).toList ++ rest) = some (i.token, rest) := by
  unfold Quoter.quoteIfNeeded Identifier.token
  by_cases quoted : (i.style ≠ .none || needsQuoting i.value) = true
  · rw [if_pos quoted, quoted]
    exact readName_quote i.value fun first => (ends _ first).2 rfl
  · rw [if_neg quoted, (Bool.not_eq_true _).mp quoted]
    exact readName_word opening valid.ne_empty (Identifier.word_of_bare quoted) fun c first => (ends c first).1

/-- A dotted name is read from the front of a text in front of anything that does not go on with it. -/
theorem readDotted_identifiers (opening : Text.isWordChar q.opening = false) (closing : q.closing ≠ '.')
    {parts : List Identifier} (some : parts ≠ []) (valid : ∀ i ∈ parts, i.Valid)
    (ends : ∀ c ∈ rest.head?, Text.isWordChar c = false ∧ c ≠ '.' ∧ c ≠ q.closing) :
    q.readDotted ((q.qualify parts).toList ++ rest) = .some (parts.map Identifier.token, rest) := by
  unfold Quoter.qualify
  induction parts with
  | nil => exact absurd rfl some
  | cons i parts ih =>
    have first := valid i (List.mem_cons_self ..)
    -- behind the last name stands what follows, behind every other one a dot
    cases parts with
    | nil =>
      have alone := readName_identifier opening first fun c begun => ⟨(ends c begun).1, (ends c begun).2.2⟩
      exact readDotted_last alone fun dot => (ends _ dot).2.1 rfl
    | cons j parts =>
      have others := ih (List.cons_ne_nil j parts) fun k member => valid k (List.mem_cons_of_mem i member)
      let text := Text.join "." ((j :: parts).map q.quoteIfNeeded)
      have cut : (Text.join "." ((i :: j :: parts).map q.quoteIfNeeded)).toList ++ rest =
          (q.quoteIfNeeded i).toList ++ '.' :: (text.toList ++ rest) := by
        simp [Text.join, text]
      have dot : ∀ c ∈ ('.' :: (text.toList ++ rest)).head?, Text.isWordChar c = false ∧ c ≠ q.closing := by
        rintro _ ⟨⟩
        exact ⟨rfl, closing.symm⟩
      rw [cut, readDotted_dot (readName_identifier opening first dot), others]
      rfl

end Quoter

/-- Reserved words are listed in lower case. -/
theorem reservedWords_lower : ∀ word ∈ reservedWords, Text.lower word = word := by
  decide +kernel

/-- A name that is written without quotes is a word that may stand so. -/
theorem Identifier.Valid.bare {i : Identifier} (valid : i.Valid) (bare : i.token.quoted = false) :
    (∃ c ∈ i.value.toList.head?, c.isAlpha || c == '_') ∧
      ∀ word ∈ reservedWords, Text.lower word ≠ Text.lower i.value := by
  have plain : needsQuoting i.value = false := (Bool.or_eq_false_iff.mp bare).2
  simp only [needsQuoting, Bool.or_eq_false_iff, Bool.not_eq_false'] at plain
  obtain ⟨⟨free, words⟩, digit⟩ := plain
  refine ⟨?_, fun word member same => ?_⟩
  · cases cut : i.value.toList with
    | nil => exact absurd (String.toList_eq_nil_iff.mp cut) valid.ne_empty
    | cons c cs =>
      rw [cut] at words digit
      have begins := (Bool.and_eq_true_iff.mp (List.all_cons.symm.trans words)).1
      refine ⟨c, rfl, ?_⟩
      simp only [Text.isWordChar, Char.isAlphanum, digit, Bool.or_false] at begins
      exact begins
  · rw [reservedWords_lower word member] at same
    rw [← same, List.contains_eq_mem, decide_eq_false_iff_not] at free
    exact free member

/-- Dotted names can be read back. In front of anything that does not go on with a name, a reader gets the
values of the identifiers and leaves what stands behind; and what stood there without quotes begins like a
word and is no reserved word in any letter case. -/
theorem Quoter.readDotted_qualify {q : Quoter}
    (opening : Text.isWordChar q.opening = false) (closing : q.closing ≠ '.')
    {parts : List Identifier} (some : parts ≠ []) (valid : ∀ i ∈ parts, i.Valid) {rest : List Char}
    (ends : ∀ c ∈ rest.head?, Text.isWordChar c = false ∧ c ≠ '.' ∧ c ≠ q.closing) :
    ∃ names, q.readDotted ((q.qualify parts).toList ++ rest) = .some (names, rest) ∧
      names.map NameToken.value = parts.map Identifier.value ∧
      ∀ name ∈ names, name.quoted = false →
        (∃ c ∈ name.value.toList.head?, c.isAlpha || c == '_') ∧
          ∀ word ∈ reservedWords, Text.lower word ≠ Text.lower name.value := by
  refine ⟨parts.map Identifier.token, readDotted_identifiers opening closing some valid ends, ?_, ?_⟩
  · rw [List.map_map]
    rfl
  · intro name member bare
    obtain ⟨i, part, rfl⟩ := List.mem_map.mp member
    exact (valid i part).bare bare

/-- In brackets: a reserved word, a name with a dot and a bracket in it, and a bare word, before a space. -/
theorem Quoter.readDotted_qualify_brackets :
    let q : Quoter := ⟨'[', ']'⟩
    let parts : List Identifier := [⟨"Order", .none⟩, ⟨"a].b", .none⟩, ⟨"c_1", .none⟩]
    q.qualify parts = "[Order].[a]].b].c_1" ∧
      ∃ names, q.readDotted ((q.qualify parts).toList ++ " = 1".toList) = some (names, " = 1".toList) ∧
        names.map NameToken.value = ["Order", "a].b", "c_1"] := by
  intro q parts
  have valid : ∀ i ∈ parts, i.Valid := by
    simp only [parts, List.forall_mem_cons]
    exact ⟨rfl, rfl, rfl, nofun⟩
  have space : " = 1".toList.head? = some ' ' := by decide
  have ends : ∀ c ∈ " = 1".toList.head?, Text.isWordChar c = false ∧ c ≠ '.' ∧ c ≠ q.closing := by
    rw [space]
    rintro _ ⟨⟩
    decide
  obtain ⟨names, found, values, _⟩ :=
    Quoter.readDotted_qualify (q := q) (by decide) (by decide) (List.cons_ne_nil _ _) valid ends
  exact ⟨by decide, names, found, values⟩

end SqlTree

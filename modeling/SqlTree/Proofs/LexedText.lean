import SqlTree.Proofs.BuiltValid
import SqlTree.Proofs.Lexemes

namespace SqlTree

/-- The names of a column, from its table's to its own. -/
def ColumnRef.parts (c : ColumnRef) : List Identifier :=
  c.qualifier.toList ++ [c.name]

/-- The lexemes of identifiers with dots between them. -/
def Identifier.dotted (parts : List Identifier) : List Lexeme :=
  (parts.map Identifier.lexeme).intersperse (.symbol '.')

/-- Nothing but names and dots stands in a dotted name. -/
theorem Identifier.mem_dotted {parts : List Identifier} {l : Lexeme} (member : l ∈ Identifier.dotted parts) :
    l.name? ≠ none ∨ l = .symbol '.' := by
  induction parts with
  | nil => cases member
  | cons i parts ih =>
    have own : ∀ j : Identifier, l = j.lexeme → l.name? ≠ none ∨ l = .symbol '.' := by
      rintro j rfl
      exact .inl (by simp [j.lexeme_name])
    cases parts with
    | nil => exact own i (List.mem_singleton.mp member)
    | cons j parts =>
      rcases List.mem_cons.mp member with first | rest
      · exact own i first
      rcases List.mem_cons.mp rest with dot | others
      · exact .inr dot
      · exact ih others

/-- Words with a space before each. -/
def Text.spaced : List String → String
  | [] => ""
  | w :: words => " " ++ w ++ spaced words

theorem Text.spaced_append (words others : List String) :
    Text.spaced (words ++ others) = Text.spaced words ++ Text.spaced others := by
  induction words with
  | nil => exact String.empty_append.symm
  | cons w words ih => simp only [List.cons_append, spaced, ih, String.append_assoc]

namespace Quoter

/-- A text that is cut into the same lexemes whatever follows. -/
def Closes (q : Quoter) (text : String) (lexemes : List Lexeme) : Prop :=
  ∀ rest, q.lexemes (text.toList ++ rest) = lexemes ++ q.lexemes rest

/-- A text that is cut into the same lexemes at the end and in front of what ends a word or a quoted name. -/
def Cuts (q : Quoter) (text : String) (lexemes : List Lexeme) : Prop :=
  ∀ rest, Lexing.Ends q rest → q.lexemes (text.toList ++ rest) = lexemes ++ q.lexemes rest

/-- A text whose beginning ends a word or a quoted name. -/
def Breaks (q : Quoter) (text : String) : Prop :=
  ∃ c ∈ text.toList.head?, Text.isWordChar c = false ∧ c ≠ q.closing

variable {q : Quoter} {s t u : String} {l m n : List Lexeme}

theorem Legible.breaks (legible : q.Legible) (begins : ∃ c ∈ s.toList.head?, c ∈ punctuation) : q.Breaks s := by
  obtain ⟨c, first, mark⟩ := begins
  have ends : Lexing.Ends q [c] := legible.ends (by rintro _ ⟨⟩; exact mark)
  exact ⟨c, first, ends c rfl⟩

theorem Breaks.ends (breaks : q.Breaks s) (rest : List Char) : Lexing.Ends q (s.toList ++ rest) := by
  obtain ⟨c, first, ends⟩ := breaks
  intro d begun
  rw [List.head?_append_of_ne_nil _ (by rintro empty; simp [empty] at first), first] at begun
  cases begun
  exact ends

theorem Cuts.lexemes (cuts : q.Cuts s l) : q.lexemes s.toList = l := by
  have whole := cuts [] nofun
  simpa [Quoter.lexemes, Lexing.run, Lexing.finish] using whole

theorem Closes.cuts (closes : q.Closes s l) : q.Cuts s l :=
  fun rest _ => closes rest

theorem Closes.append (first : q.Closes s l) (second : q.Closes t m) : q.Closes (s ++ t) (l ++ m) := by
  intro rest
  rw [String.toList_append, List.append_assoc, first, second, List.append_assoc]

theorem Closes.before (first : q.Closes s l) (second : q.Cuts t m) : q.Cuts (s ++ t) (l ++ m) := by
  intro rest ends
  rw [String.toList_append, List.append_assoc, first, second rest ends, List.append_assoc]

theorem Cuts.closes (first : q.Cuts s l) (breaks : q.Breaks t) (second : q.Closes t m) :
    q.Closes (s ++ t) (l ++ m) := by
  intro rest
  rw [String.toList_append, List.append_assoc, first _ (breaks.ends rest), second, List.append_assoc]

/-- A character that is neither a quote nor part of words is a lexeme of its own. -/
theorem lexemes_mark {c : Char} (other : c ≠ q.opening) (mark : Text.isWordChar c = false) (rest : List Char) :
    q.lexemes (c :: rest) = .symbol c :: q.lexemes rest := by
  simp [Quoter.lexemes, Lexing.run, Lexing.step, Lexing.start, other, mark]

theorem closes_marks (marks : ∀ c ∈ s.toList, c ≠ q.opening ∧ Text.isWordChar c = false) :
    q.Closes s (s.toList.map .symbol) := by
  intro rest
  generalize s.toList = cs at marks
  induction cs with
  | nil => rfl
  | cons c cs ih =>
    have first := marks c (List.mem_cons_self ..)
    have others := ih fun d member => marks d (List.mem_cons_of_mem c member)
    rw [List.cons_append, lexemes_mark first.1 first.2, others]
    rfl

/-- Characters of words and punctuation are quotes of no legible quoter. -/
def isBare (c : Char) : Bool :=
  Text.isWordChar c || punctuation.contains c

/-- A text without quotes is cut by all quoters alike. -/
theorem Legible.run_plain (legible : q.Legible) {cs rest : List Char} (plain : cs.all isBare = true)
    (ends : Lexing.Ends q rest) (s : Lexing) (open' : s = .apart ∨ ∃ word, s = .word word) :
    s.run q (cs ++ rest) = s.run .standard cs ++ q.lexemes rest := by
  induction cs generalizing s with
  | nil =>
    obtain rfl | ⟨word, rfl⟩ := open'
    · rfl
    · exact Lexing.run_end_word ends
  | cons c cs ih =>
    obtain ⟨bare, others⟩ := Bool.and_eq_true_iff.mp (List.all_cons.symm.trans plain)
    have other : ∀ {q : Quoter}, q.Legible → c ≠ q.opening := by
      rintro q legible rfl
      simp [isBare, legible.opening, legible.apart] at bare
    have start : Lexing.start q c = Lexing.start .standard c := by
      simp only [Lexing.start, other legible, other standard_legible, if_false]
    have step : s.step q c = s.step .standard c := by
      obtain rfl | ⟨word, rfl⟩ := open' <;> simp only [Lexing.step, start]
    have stays : (s.step .standard c).2 = .apart ∨ ∃ word, (s.step .standard c).2 = .word word := by
      obtain rfl | ⟨word, rfl⟩ := open' <;>
        simp only [Lexing.step, Lexing.start, other standard_legible, if_false] <;> split <;> simp
    rw [List.cons_append, Lexing.run, Lexing.run, step, ih others _ stays, List.append_assoc]

theorem Legible.closes_plain (legible : q.Legible) (s : String) (plain : s.toList.all isBare = true)
    (last : ∃ c ∈ s.toList.getLast?, c ∈ punctuation) : q.Closes s (Quoter.standard.lexemes s.toList) := by
  obtain ⟨c, ending, mark⟩ := last
  obtain ⟨before, cut⟩ := List.getLast?_eq_some_iff.mp ending
  have others : before.all isBare = true := by
    rw [cut, List.all_append, Bool.and_eq_true] at plain
    exact plain.1
  have closing : ∀ {q : Quoter}, q.Legible → ∀ rest, q.lexemes (s.toList ++ rest) =
      Lexing.apart.run .standard before ++ .symbol c :: q.lexemes rest := by
    intro q legible rest
    have ends : Lexing.Ends q (c :: rest) := legible.ends (by rintro _ ⟨⟩; exact mark)
    rw [cut, List.append_assoc, List.singleton_append, ← lexemes_symbol legible mark]
    exact legible.run_plain others ends .apart (.inl rfl)
  intro rest
  have alone := closing standard_legible []
  rw [List.append_nil] at alone
  rw [closing legible rest, alone]
  simp [Quoter.lexemes, Lexing.run, Lexing.finish]

theorem Legible.cuts_word (legible : q.Legible) (some : s ≠ "") (words : s.toList.all Text.isWordChar = true) :
    q.Cuts s [.word s] :=
  fun _ ends => lexemes_word legible some words ends

theorem Legible.closes_space (legible : q.Legible) : q.Closes " " [.symbol ' '] :=
  legible.closes_plain " " (by decide) ⟨' ', rfl, by decide⟩

theorem Legible.closes_opening (legible : q.Legible) : q.Closes "(" [.symbol '('] :=
  legible.closes_plain "(" (by decide) ⟨'(', rfl, by decide⟩

theorem Legible.closes_closing (legible : q.Legible) : q.Closes ")" [.symbol ')'] :=
  legible.closes_plain ")" (by decide) ⟨')', rfl, by decide⟩

/-- Words with spaces before them, behind another text. -/
theorem Cuts.spaced (first : q.Cuts s l) (legible : q.Legible) {words : List String}
    (plain : ∀ w ∈ words, w ≠ "" ∧ w.toList.all Text.isWordChar = true) :
    q.Cuts (s ++ Text.spaced words) (l ++ words.flatMap fun w => [.symbol ' ', .word w]) := by
  induction words generalizing s l with
  | nil => simpa [Text.spaced] using first
  | cons w words ih =>
    obtain ⟨some, word⟩ := plain w (List.mem_cons_self ..)
    have space : q.Breaks " " := legible.breaks ⟨' ', rfl, by decide⟩
    have next := (first.closes space legible.closes_space).before (legible.cuts_word some word)
    have others := ih next fun v member => plain v (List.mem_cons_of_mem w member)
    simpa [Text.spaced, String.append_assoc] using others

theorem Legible.cuts_identifier (legible : q.Legible) {i : Identifier} (valid : i.Valid) :
    q.Cuts (q.quoteIfNeeded i) [i.lexeme] :=
  fun _ ends => lexemes_identifier legible valid ends

theorem Legible.closes_dot (legible : q.Legible) : q.Closes "." [.symbol '.'] :=
  legible.closes_plain "." (by decide) ⟨'.', rfl, by decide⟩

/-- A dotted name is cut at its dots. -/
theorem Legible.cuts_dotted (legible : q.Legible) {parts : List Identifier} (valid : ∀ i ∈ parts, i.Valid) :
    q.Cuts (q.qualify parts) (Identifier.dotted parts) := by
  unfold qualify
  induction parts with
  | nil => exact fun _ _ => rfl
  | cons i parts ih =>
    have first := legible.cuts_identifier (valid i (List.mem_cons_self ..))
    have others := ih fun j member => valid j (List.mem_cons_of_mem i member)
    cases parts with
    | nil => exact first
    | cons j parts =>
      have dot : q.Breaks "." := legible.breaks ⟨'.', rfl, by decide⟩
      exact (first.closes dot legible.closes_dot).before others

theorem qualify_parts (c : ColumnRef) : q.qualify c.parts = Vocabulary.columnText q c := by
  obtain ⟨_ | table, name⟩ := c
  · exact String.empty_append.symm
  · rfl

theorem Legible.cuts_column (legible : q.Legible) {c : ColumnRef} (valid : ∀ i ∈ c.parts, i.Valid) :
    q.Cuts (Vocabulary.columnText q c) (Identifier.dotted c.parts) :=
  qualify_parts c ▸ legible.cuts_dotted valid

end Quoter

theorem ColumnRef.parts_valid {c : ColumnRef} (valid : (Expr.column c).Valid) : ∀ i ∈ c.parts, i.Valid := by
  obtain ⟨tables, name⟩ := Expr.column_valid.mp valid
  intro i member
  rcases List.mem_append.mp member with table | own
  · exact tables i (Option.mem_toList.mp table)
  · rwa [List.mem_singleton.mp own]

/-- A column by its bare name. -/
def ColumnRef.ofName (name : String) : ColumnRef :=
  ⟨none, ⟨name, .none⟩⟩

theorem ColumnRef.ofName_valid (name : String) (some : Text.isBlank name = false) :
    (Expr.column (.ofName name)).Valid :=
  Expr.column_valid.mpr ⟨nofun, Identifier.valid_of_text some⟩

end SqlTree

import SqlTree.Form
import SqlTree.Proofs.OperatorReading
import SqlTree.Proofs.QuotedText
import SqlTree.Proofs.Rendered
import SqlTree.Proofs.Valid
import SqlTree.Quoter

namespace SqlTree

/-- What a text is cut into before it is read as operands and signs. -/
inductive Lexeme where
  /-- A run of letters, digits and underscores. -/
  | word (text : String)
  | quoted (name : String)
  /-- A quoted name that the text breaks off. -/
  | unended (name : String)
  | symbol (c : Char)
  deriving DecidableEq, Repr

/-- What of a text has been begun and may go on. Behind a closing quote the same quote again means that the
quoted name goes on. -/
inductive Lexing where
  | apart
  | word (cs : List Char)
  | inside (cs : List Char)
  | closed (cs : List Char)

namespace Lexing

def finish : Lexing → List Lexeme
  | .apart => []
  | .word cs => [.word (String.ofList cs)]
  | .inside cs => [.unended (String.ofList cs)]
  | .closed cs => [.quoted (String.ofList cs)]

variable (q : Quoter)

/-- A character with nothing begun before it. -/
def start (c : Char) : List Lexeme × Lexing :=
  if c = q.opening then ([], .inside [])
  else if Text.isWordChar c then ([], .word [c])
  else ([.symbol c], .apart)

/-- One character: the lexemes that it ends, and what is begun behind it. -/
def step : Lexing → Char → List Lexeme × Lexing
  | .inside cs, c => ([], if c = q.closing then .closed cs else .inside (cs ++ [c]))
  | .word cs, c =>
    if Text.isWordChar c then ([], .word (cs ++ [c]))
    else (.word (String.ofList cs) :: (start q c).1, (start q c).2)
  | .closed cs, c =>
    if c = q.closing then ([], .inside (cs ++ [c]))
    else (.quoted (String.ofList cs) :: (start q c).1, (start q c).2)
  | .apart, c => start q c

def run : Lexing → List Char → List Lexeme
  | s, [] => s.finish
  | s, c :: rest => (s.step q c).1 ++ (s.step q c).2.run rest

end Lexing

def Quoter.lexemes (q : Quoter) (cs : List Char) : List Lexeme :=
  Lexing.apart.run q cs

example : Quoter.standard.lexemes "a_1 + \"b\"\" c\".d".toList =
    [.word "a_1", .symbol ' ', .symbol '+', .symbol ' ', .quoted "b\" c", .symbol '.', .word "d"] := by decide

/-- A column as text names it. -/
structure ColumnName where
  qualifier : Option String
  name : String
  deriving DecidableEq, Repr

def ColumnRef.named (c : ColumnRef) : ColumnName :=
  ⟨c.qualifier.map (·.value), c.name.value⟩

/-- The name that a lexeme is. A word that has to be quoted is none without quotes. -/
def Lexeme.name? : Lexeme → Option String
  | .word text => if needsQuoting text then none else some text
  | .quoted name => some name
  | _ => none

theorem Lexeme.word_name {text name : String} (named : (Lexeme.word text).name? = some name) :
    needsQuoting text = false := by
  by_contra quoted
  rw [Bool.not_eq_false] at quoted
  simp [Lexeme.name?, quoted] at named

/-- Which lexemes are signs and which are constants; a name is neither. -/
structure Vocabulary (α σ : Type) where
  sign : Lexeme → Option σ
  constant : Lexeme → Option α
  column : ColumnName → α
  apart : ∀ l name, l.name? = some name → sign l = none ∧ constant l = none

namespace Vocabulary

variable {α σ : Type} (v : Vocabulary α σ)

/-- The items of a lexeme that is no name. -/
def known (l : Lexeme) : Option (List (Item α σ)) :=
  if l = .symbol ' ' then some []
  else if l = .symbol '(' then some [.opening]
  else if l = .symbol ')' then some [.closing]
  else ((v.sign l).map Item.sign <|> (v.constant l).map Item.operand).map fun item => [item]

/-- The items of a text. A name with a dot and a second name right behind it is one operand. -/
def items : List Lexeme → Option (List (Item α σ))
  | [] => some []
  | l :: rest =>
    match v.known l with
    | some known => (items rest).map (known ++ ·)
    | none =>
      match l.name?, rest with
      | some table, .symbol '.' :: second :: rest =>
        second.name?.bind fun name => (items rest).map (.operand (v.column ⟨some table, name⟩) :: ·)
      | some name, rest => (items rest).map (.operand (v.column ⟨none, name⟩) :: ·)
      | none, _ => none

/-- Reads a text by the binding strength of its signs. -/
def read (p : Precedence σ) (q : Quoter) (text : String) : Option (Reading α σ) :=
  (v.items (q.lexemes text.toList)).bind p.read

end Vocabulary

/-- The characters that stand between names and numbers. -/
def punctuation : List Char :=
  " ().+-*/%^".toList

/-- Quotes that can be told from all else. -/
structure Quoter.Legible (q : Quoter) : Prop where
  opening : Text.isWordChar q.opening = false
  apart : q.opening ∉ punctuation
  closing : q.closing ∉ punctuation

theorem punctuation_marks : punctuation.all (fun c => !Text.isWordChar c) = true := by
  decide

theorem Quoter.standard_legible : Quoter.standard.Legible :=
  ⟨rfl, by decide, by decide⟩

namespace Lexing

variable {q : Quoter} {cs rest : List Char} {c : Char}

theorem run_word (words : cs.all Text.isWordChar = true) (before : List Char) :
    (Lexing.word before).run q (cs ++ rest) = (Lexing.word (before ++ cs)).run q rest := by
  induction cs generalizing before with
  | nil => rw [List.nil_append, List.append_nil]
  | cons c cs ih =>
    rw [List.all_cons, Bool.and_eq_true] at words
    have others := ih words.2 (before ++ [c])
    rw [List.append_assoc] at others
    simpa [run, step, words.1] using others

/-- What is doubled inside quotes does not end them. -/
theorem run_doubled (before : List Char) :
    (Lexing.inside before).run q (Text.doubled q.closing cs ++ rest) =
      (Lexing.inside (before ++ cs)).run q rest := by
  induction cs generalizing before with
  | nil => simp [Text.doubled]
  | cons c cs ih =>
    have others := ih (before ++ [c])
    rw [List.append_assoc] at others
    by_cases same : c = q.closing
    · subst same
      simpa [Text.doubled, run, step] using others
    · simpa [Text.doubled, run, step, same] using others

/-- A character that nothing goes on with. -/
def Ends (q : Quoter) (rest : List Char) : Prop :=
  ∀ c ∈ rest.head?, Text.isWordChar c = false ∧ c ≠ q.closing

theorem run_end_word (ends : Ends q rest) :
    (Lexing.word cs).run q rest = .word (String.ofList cs) :: q.lexemes rest := by
  cases rest with
  | nil => rfl
  | cons c rest => simp [Quoter.lexemes, run, step, (ends c rfl).1]

theorem run_end_closed (ends : Ends q rest) :
    (Lexing.closed cs).run q rest = .quoted (String.ofList cs) :: q.lexemes rest := by
  cases rest with
  | nil => rfl
  | cons c rest => simp [Quoter.lexemes, run, step, (ends c rfl).2]

end Lexing

/-- The lexeme of an identifier as it is written. -/
def Identifier.lexeme (i : Identifier) : Lexeme :=
  if i.style ≠ .none || needsQuoting i.value then .quoted i.value else .word i.value

theorem Identifier.lexeme_name (i : Identifier) : i.lexeme.name? = some i.value := by
  unfold Identifier.lexeme
  split
  · rfl
  · rename_i bare
    simp only [Bool.or_eq_true, not_or] at bare
    exact if_neg bare.2

theorem Identifier.Valid.ne_empty {i : Identifier} (valid : i.Valid) : i.value ≠ "" := by
  intro empty
  unfold Identifier.Valid Identifier.check at valid
  rw [empty] at valid
  cases valid

namespace Quoter

variable {q : Quoter} {rest : List Char}

theorem lexemes_symbol (legible : q.Legible) {c : Char} (member : c ∈ punctuation) :
    q.lexemes (c :: rest) = .symbol c :: q.lexemes rest := by
  have other : c ≠ q.opening := fun same => legible.apart (same ▸ member)
  have mark := List.all_eq_true.mp punctuation_marks c member
  simp_all [lexemes, Lexing.run, Lexing.step, Lexing.start]

theorem lexemes_word (legible : q.Legible) {text : String} (some : text ≠ "")
    (words : text.toList.all Text.isWordChar = true) (ends : Lexing.Ends q rest) :
    q.lexemes (text.toList ++ rest) = .word text :: q.lexemes rest := by
  cases cut : text.toList with
  | nil => exact absurd (String.toList_eq_nil_iff.mp cut) some
  | cons c cs =>
    rw [cut, List.all_cons, Bool.and_eq_true] at words
    have other : c ≠ q.opening := by
      rintro rfl
      rw [legible.opening] at words
      cases words.1
    have begun : q.lexemes (c :: cs ++ rest) = (Lexing.word [c]).run q (cs ++ rest) := by
      simp [lexemes, Lexing.run, Lexing.step, Lexing.start, other, words.1]
    rw [begun, Lexing.run_word words.2, Lexing.run_end_word ends, List.singleton_append, ← cut,
      String.ofList_toList]

theorem lexemes_quote (name : String) (ends : Lexing.Ends q rest) :
    q.lexemes ((q.quote name).toList ++ rest) = .quoted name :: q.lexemes rest := by
  have begun : ∀ cs, q.lexemes (q.opening :: cs) = (Lexing.inside []).run q cs := by
    intro cs
    simp [lexemes, Lexing.run, Lexing.step, Lexing.start]
  have closes : (Lexing.inside name.toList).run q (q.closing :: rest) = (Lexing.closed name.toList).run q rest := by
    simp [Lexing.run, Lexing.step]
  rw [quote, Text.toList_quoted_append, begun, Lexing.run_doubled, List.nil_append, closes,
    Lexing.run_end_closed ends, String.ofList_toList]

/-- An identifier is read as the lexeme it was written as. -/
theorem lexemes_identifier (legible : q.Legible) {i : Identifier} (valid : i.Valid) (ends : Lexing.Ends q rest) :
    q.lexemes ((q.quoteIfNeeded i).toList ++ rest) = i.lexeme :: q.lexemes rest := by
  unfold Identifier.lexeme Quoter.quoteIfNeeded
  split
  · exact lexemes_quote i.value ends
  · rename_i bare
    exact lexemes_word legible valid.ne_empty (Identifier.word_of_bare bare) ends

theorem Legible.ends (legible : q.Legible) (stops : ∀ c ∈ rest.head?, c ∈ punctuation) : Lexing.Ends q rest := by
  intro c first
  have mark := List.all_eq_true.mp punctuation_marks c (stops c first)
  exact ⟨by simpa using mark, fun same => legible.closing (same ▸ stops c first)⟩

end Quoter

namespace Vocabulary

variable {α σ : Type} (v : Vocabulary α σ) (q : Quoter)

/-- A text that is read as the same items whatever stands behind it. -/
def Marks (text : String) (items : List (Item α σ)) : Prop :=
  ∀ rest, v.items (q.lexemes (text.toList ++ rest)) = (v.items (q.lexemes rest)).map (items ++ ·)

/-- A text that is read as the same items at the end and in front of a space or a closing parenthesis. -/
def Spells (text : String) (items : List (Item α σ)) : Prop :=
  ∀ rest, (∀ c ∈ rest.head?, c = ' ' ∨ c = ')') →
    v.items (q.lexemes (text.toList ++ rest)) = (v.items (q.lexemes rest)).map (items ++ ·)

variable {v q} {s t : String} {a b : List (Item α σ)}

theorem Marks.spells (marks : v.Marks q s a) : v.Spells q s a :=
  fun rest _ => marks rest

theorem Marks.append (first : v.Marks q s a) (second : v.Marks q t b) : v.Marks q (s ++ t) (a ++ b) := by
  intro rest
  rw [String.toList_append, List.append_assoc, first, second, Option.map_map]
  simp [Function.comp_def]

theorem Marks.before (first : v.Marks q s a) (second : v.Spells q t b) : v.Spells q (s ++ t) (a ++ b) := by
  intro rest stops
  rw [String.toList_append, List.append_assoc, first, second rest stops, Option.map_map]
  simp [Function.comp_def]

theorem known_items {l : Lexeme} {known : List (Item α σ)} (named : v.known l = some known) (rest : List Lexeme) :
    v.items (l :: rest) = (v.items rest).map (known ++ ·) := by
  rw [items.eq_def]
  simp only [named]

/-- Names are not known otherwise. -/
theorem known_name {l : Lexeme} {name : String} (named : l.name? = some name) : v.known l = none := by
  obtain ⟨sign, constant⟩ := v.apart l name named
  cases l with
  | symbol c => cases named
  | _ => simp [known, sign, constant]

theorem name_items {l : Lexeme} {name : String} (named : l.name? = some name) {rest : List Lexeme}
    (alone : rest.head? ≠ some (.symbol '.')) :
    v.items (l :: rest) = (v.items rest).map (.operand (v.column ⟨none, name⟩) :: ·) := by
  rw [items.eq_def]
  simp only [known_name named, named]
  split
  · rename_i second others same
    simp at alone
  · rename_i found _
    cases found
    rfl
  · rename_i missing
    cases missing

theorem dotted_items {l second : Lexeme} {table name : String} (named : l.name? = some table)
    (named' : second.name? = some name) (rest : List Lexeme) :
    v.items (l :: .symbol '.' :: second :: rest) =
      (v.items rest).map (.operand (v.column ⟨some table, name⟩) :: ·) := by
  rw [items.eq_def]
  simp only [known_name named, named, named', Option.bind_some]

theorem marks_symbol (legible : q.Legible) {c : Char} (cut : s.toList = [c]) (member : c ∈ punctuation)
    (known : v.known (.symbol c) = some a) : v.Marks q s a := by
  intro rest
  rw [cut, List.singleton_append, Quoter.lexemes_symbol legible member, known_items known]

/-- A word and the space behind it. -/
theorem marks_word (legible : q.Legible) (word : String) (some : word ≠ "")
    (words : word.toList.all Text.isWordChar = true) (known : v.known (.word word) = .some a) :
    v.Marks q (word ++ " ") a := by
  intro rest
  have space : (' ' : Char) ∈ punctuation := by decide
  have ends : Lexing.Ends q (' ' :: rest) := legible.ends (by rintro _ ⟨⟩; exact space)
  have cut : (word ++ " ").toList ++ rest = word.toList ++ ' ' :: rest := by simp
  have blank : v.known (.symbol ' ') = .some [] := rfl
  rw [cut, Quoter.lexemes_word legible some words ends, Quoter.lexemes_symbol legible space, known_items known,
    known_items blank, Option.map_map]
  simp [Function.comp_def]

/-- Anything may follow what stands in parentheses. -/
theorem Spells.wrap (legible : q.Legible) (spells : v.Spells q s a) :
    v.Marks q ("(" ++ s ++ ")") (Item.wrap a) := by
  intro rest
  have opens : v.Marks q "(" [.opening] := marks_symbol legible rfl (by decide) rfl
  have closes : v.Marks q ")" [.closing] := marks_symbol legible rfl (by decide) rfl
  have stops : ∀ c ∈ (")".toList ++ rest).head?, c = ' ' ∨ c = ')' := by
    rintro _ ⟨⟩
    exact .inr rfl
  rw [String.toList_append, String.toList_append, List.append_assoc, List.append_assoc, opens, spells _ stops,
    closes, Option.map_map, Option.map_map]
  simp [Function.comp_def, Item.wrap]

/-- Two texts with a sign between them that starts with a space. -/
theorem Spells.join {c : List (Item α σ)} {mark : String} (first : v.Spells q s a)
    (spaced : mark.toList.head? = .some ' ') (between : v.Marks q mark c) (second : v.Spells q t b) :
    v.Spells q (s ++ mark ++ t) (a ++ c ++ b) := by
  intro rest stops
  have stopped : ∀ d ∈ (mark.toList ++ (t.toList ++ rest)).head?, d = ' ' ∨ d = ')' := by
    simp [spaced]
  rw [String.toList_append, String.toList_append, List.append_assoc, List.append_assoc, first _ stopped, between,
    second rest stops, Option.map_map, Option.map_map]
  simp [Function.comp_def]

/-- A word that is no name is read as what it is known for. -/
theorem spells_word (legible : q.Legible) {word : String} (some : word ≠ "")
    (words : word.toList.all Text.isWordChar = true) (known : v.known (.word word) = .some a) :
    v.Spells q word a := by
  intro rest stops
  have ends : Lexing.Ends q rest := legible.ends fun c first => by
    obtain rfl | rfl := stops c first <;> decide
  rw [Quoter.lexemes_word legible some words ends, known_items known]

/-- A column, with its table's name and a dot before it if it has one. -/
def columnText (q : Quoter) (c : ColumnRef) : String :=
  (match c.qualifier with
    | some table => q.quoteIfNeeded table ++ "."
    | none => "") ++ q.quoteIfNeeded c.name

theorem spells_column (legible : q.Legible) {c : ColumnRef} (tables : ∀ table ∈ c.qualifier, table.Valid)
    (valid : c.name.Valid) : v.Spells q (columnText q c) [.operand (v.column c.named)] := by
  intro rest stops
  have ends : Lexing.Ends q rest := legible.ends fun c first => by
    obtain rfl | rfl := stops c first <;> decide
  obtain ⟨_ | table, name⟩ := c
  · have alone : (q.lexemes rest).head? ≠ some (.symbol '.') := by
      cases rest with
      | nil => simp [Quoter.lexemes, Lexing.run, Lexing.finish]
      | cons d rest =>
        have mark : d ∈ punctuation := by
          obtain rfl | rfl := stops d rfl <;> decide
        rw [Quoter.lexemes_symbol legible mark]
        obtain rfl | rfl := stops d rfl <;> simp
    rw [columnText, String.empty_append, Quoter.lexemes_identifier legible valid ends,
      name_items name.lexeme_name alone]
    rfl
  · have dot : '.' ∈ punctuation := by decide
    have cut : (columnText q ⟨some table, name⟩).toList ++ rest =
        (q.quoteIfNeeded table).toList ++ '.' :: ((q.quoteIfNeeded name).toList ++ rest) := by
      simp [columnText]
    rw [cut, Quoter.lexemes_identifier legible (tables table rfl) (legible.ends (by rintro _ ⟨⟩; exact dot)),
      Quoter.lexemes_symbol legible dot, Quoter.lexemes_identifier legible valid ends,
      dotted_items table.lexeme_name name.lexeme_name]
    rfl

end Vocabulary

/-- Writing a document adds a text to the page, whatever the page. -/
def Doc.Adds (ctx : Context) (d : Doc) (text : String) : Prop :=
  ∀ w, d.Writes ctx w (w.write text)

namespace Doc.Adds

variable {ctx : Context} {d e : Doc} {s t : String}

theorem text : (Doc.text s).Adds ctx s :=
  fun _ => Doc.Writes.text_iff.mpr rfl

theorem append (first : d.Adds ctx s) (second : e.Adds ctx t) : (d ++ e).Adds ctx (s ++ t) := by
  intro w
  have joined : w.write (s ++ t) = (w.write s).write t := by
    simp only [Writer.write, String.append_assoc]
  rw [joined]
  exact Doc.Writes.append_iff.mpr ⟨_, first w, second _⟩

theorem silent (nothing : ∀ w, d.Writes ctx w w) : d.Adds ctx "" := by
  intro w
  have same : w.write "" = w := by
    simp only [Writer.write, String.append_empty]
  rw [same]
  exact nothing w

theorem empty : Doc.empty.Adds ctx "" :=
  silent fun _ => Doc.Writes.empty_iff.mpr rfl

theorem require {construct : Construct} (has : ctx.dialect.capabilities.supports construct.feature = true) :
    (Doc.require construct).Adds ctx "" :=
  silent fun _ => Doc.Writes.require_iff.mpr ⟨has, rfl⟩

/-- What writes nothing adds nothing to the text behind it. -/
theorem behind (silent : d.Adds ctx "") (adds : e.Adds ctx t) : (d ++ e).Adds ctx t := by
  have both := silent.append adds
  rwa [String.empty_append] at both

/-- A text is put in parentheses when it begins with the minus sign that stands before it. -/
theorem afterMinus (body : d.Adds ctx s) : (Doc.afterMinus d).Adds ctx (Doc.guardMinus s) := by
  intro w
  refine Doc.Writes.afterMinus_iff.mpr ⟨_, body _, ?_⟩
  simp [Writer.write]

theorem columnDoc (c : ColumnRef) :
    (ctx.dialect.columnDoc c).Adds ctx (Vocabulary.columnText ctx.dialect.quoter c) := by
  obtain ⟨_ | table, name⟩ := c
  · exact append empty text
  · exact append (append text text) text

end Doc.Adds

/-- A document that adds a text is rendered as that text. -/
theorem Tree.renderOn_adds {k : Kind} {t : Tree k} {ctx : Context} {text : String}
    (adds : (t.doc ctx.dialect.toStyle).Adds ctx text) (reserved : List String) :
    (t.renderOn ctx reserved).result = .ok ⟨text, []⟩ := by
  have written : ((t.doc ctx.dialect.toStyle).write ctx).outcome (ctx.page reserved) =
      (.ok (), (ctx.page reserved).write text) := adds _
  have page : Outcome.result (.ok (), (ctx.page reserved).write text) = .ok ⟨"" ++ text, []⟩ := rfl
  rw [Tree.renderOn_result, written, page, String.empty_append]

theorem Tree.render_adds {k : Kind} {t : Tree k} {dialect : Dialect} {options : RenderOptions}
    (inline : options.mode = .inline) {text : String}
    (adds : (t.doc dialect.toStyle).Adds ⟨dialect, options⟩ text) :
    (t.render dialect options).result = .ok ⟨text, []⟩ := by
  rw [t.render_inline dialect inline]
  exact Tree.renderOn_adds adds []

section Shows

variable {α σ : Type} {v : Vocabulary α σ} {ctx : Context} {d e : Doc} {a b : List (Item α σ)}

variable (v ctx) in
/-- A document adds a text to the page that is read as the given items. -/
def Doc.Shows (d : Doc) (items : List (Item α σ)) : Prop :=
  ∃ text, d.Adds ctx text ∧ v.Spells ctx.dialect.quoter text items

theorem Doc.Shows.wrap (legible : ctx.dialect.quoter.Legible) (shows : d.Shows v ctx a) :
    (Doc.parens d).Shows v ctx (Item.wrap a) := by
  obtain ⟨text, adds, spells⟩ := shows
  exact ⟨_, (Doc.Adds.text.append adds).append .text, (spells.wrap legible).spells⟩

/-- Parentheses around an operand are read as such. -/
theorem Doc.Shows.operand (legible : ctx.dialect.quoter.Legible) {t : Expr} (shows : d.Shows v ctx a)
    (wrap : Nat → Bool) :
    (Render.operand wrap ⟨t, d⟩).Shows v ctx (Item.enclosed ((Expr.binding? t).any wrap) a) := by
  unfold Render.operand
  cases Expr.binding? t with
  | none => exact shows
  | some strength =>
    simp only [Option.any_some, Item.enclosed]
    split
    · exact shows.wrap legible
    · exact shows

theorem Doc.Shows.join {c : List (Item α σ)} {mark : String} (first : d.Shows v ctx a)
    (spaced : mark.toList.head? = .some ' ') (between : v.Marks ctx.dialect.quoter mark c)
    (second : e.Shows v ctx b) :
    (d ++ Doc.text mark ++ e).Shows v ctx (a ++ c ++ b) := by
  obtain ⟨_, adds, spells⟩ := first
  obtain ⟨_, adds', spells'⟩ := second
  exact ⟨_, (adds.append .text).append adds', spells.join spaced between spells'⟩

/-- What writes nothing shows nothing. -/
theorem Doc.Shows.behind (silent : d.Adds ctx "") (shows : e.Shows v ctx a) : (d ++ e).Shows v ctx a := by
  obtain ⟨text, adds, spells⟩ := shows
  exact ⟨text, silent.behind adds, spells⟩

theorem Doc.Shows.lead {mark : String} {c : List (Item α σ)} (before : v.Marks ctx.dialect.quoter mark c)
    (shows : d.Shows v ctx a) : (Doc.text mark ++ d).Shows v ctx (c ++ a) := by
  obtain ⟨_, adds, spells⟩ := shows
  exact ⟨_, Doc.Adds.text.append adds, before.before spells⟩

/-- What a document shows is what the text of its rendering is read as. -/
theorem Tree.render_shown {k : Kind} {t : Tree k} {dialect : Dialect} {options : RenderOptions}
    (inline : options.mode = .inline) (shows : (t.doc dialect.toStyle).Shows v ⟨dialect, options⟩ a) :
    ∃ text, (t.render dialect options).result = .ok ⟨text, []⟩ ∧ ∀ p, v.read p dialect.quoter text = p.read a := by
  obtain ⟨text, adds, spells⟩ := shows
  refine ⟨text, Tree.render_adds inline adds, fun p => ?_⟩
  have whole := spells [] nofun
  rw [List.append_nil] at whole
  rw [Vocabulary.read, whole]
  simp [Quoter.lexemes, Lexing.run, Lexing.finish, Vocabulary.items]

end Shows

end SqlTree

import Mathlib.Order.Defs.LinearOrder
import SqlTree.Build.Query
import SqlTree.Proofs.BoundOrder
import SqlTree.Proofs.LexedText
import SqlTree.Proofs.ScalarText
import SqlTree.Proofs.Unresolved

/-!
What ORDER BY sorts by. The text of a list of sort keys is read back key by key, and rows are compared by what
was read. A placement of nulls that the dialect cannot write is read as a key of its own in front, and the rows
come out in the requested order all the same.
-/
namespace SqlTree

/-- Quotes that can also be told from commas. -/
structure Quoter.Separable (q : Quoter) : Prop extends q.Legible where
  opening_comma : q.opening ≠ ','
  closing_comma : q.closing ≠ ','

/-- A row of nullable values. -/
abbrev Row (α : ColumnName → Type) :=
  (c : ColumnName) → Option (α c)

/-- A key that rows are sorted by, with columns named by `γ`. -/
structure SortKey (γ : Type) where
  column : γ
  /-- The numbers to sort by instead of the value: the one of a null and the one of anything else. -/
  ranks : Option (Nat × Nat)
  direction : Option Direction
  nulls : Option Nulls
  deriving DecidableEq

/-- A column to sort by, as it is asked for. -/
structure SortItem where
  column : ColumnRef
  direction : Option Direction
  nulls : Option Nulls

section Comparing

def Direction.apply : Direction → Ordering → Ordering
  | .asc, o => o
  | .desc, o => o.swap

namespace Nulls

/-- How a null compares with a value. -/
def side : Nulls → Ordering
  | .first => .lt
  | .last => .gt

/-- The numbers that sort nulls before or behind values. -/
def ranks : Nulls → Nat × Nat
  | .first => (0, 1)
  | .last => (1, 0)

/-- The first number for a null, the second one for a value. -/
def rank {β : Type} (ranks : Nat × Nat) : Option β → Nat
  | none => ranks.1
  | some _ => ranks.2

variable {β : Type} [LinearOrder β]

/-- Compares nullable values. The direction turns values around and leaves nulls where they are placed. -/
def compare (nulls : Nulls) (direction : Direction) : Option β → Option β → Ordering
  | none, none => .eq
  | none, some _ => nulls.side
  | some _, none => nulls.side.swap
  | some x, some y => direction.apply (Ord.compare x y)

/-- Behind the ranks of a placement it plays no part where nulls are placed. -/
theorem rank_then_compare (nulls other : Nulls) (direction : Direction) (x y : Option β) :
    (Ord.compare (rank nulls.ranks x) (rank nulls.ranks y)).then (other.compare direction x y) =
      nulls.compare direction x y := by
  cases nulls <;> cases x <;> cases y <;> rfl

end Nulls

variable {α : ColumnName → Type} [∀ c, LinearOrder (α c)] (sorting : NullSorting)

namespace SortKey

def map {γ δ : Type} (f : γ → δ) (k : SortKey γ) : SortKey δ :=
  ⟨f k.column, k.ranks, k.direction, k.nulls⟩

/-- Compares two rows by one key. A missing direction is ascending, and without a placement nulls are where the
dialect has them in that direction. -/
def compare (k : SortKey ColumnName) (r s : Row α) : Ordering :=
  let direction := k.direction.getD .asc
  match k.ranks with
  | none => (k.nulls.getD (sorting.defaultFor direction)).compare direction (r k.column) (s k.column)
  | some ranks => direction.apply (Ord.compare (Nulls.rank ranks (r k.column)) (Nulls.rank ranks (s k.column)))

/-- Compares two rows by the first key that tells them apart. -/
def compareAll (r s : Row α) : List (SortKey ColumnName) → Ordering
  | [] => .eq
  | k :: keys => (k.compare sorting r s).then (compareAll r s keys)

theorem compareAll_append (r s : Row α) (keys others : List (SortKey ColumnName)) :
    compareAll sorting r s (keys ++ others) =
      (compareAll sorting r s keys).then (compareAll sorting r s others) := by
  induction keys with
  | nil => rfl
  | cons k keys ih => rw [List.cons_append, compareAll, compareAll, ih, Ordering.then_assoc]

end SortKey

namespace SortItem

/-- The key that is asked for. -/
def requested (i : SortItem) : SortKey ColumnName :=
  ⟨i.column.named, none, i.direction, i.nulls⟩

/-- The keys that are written. -/
def keys (i : SortItem) : List (SortKey ColumnRef) :=
  ((sorting.emulated i.direction i.nulls).map fun n => ⟨i.column, some n.ranks, none, none⟩).toList ++
    [⟨i.column, none, i.direction, if sorting.explicit then i.nulls else none⟩]

/-- A placement that is not emulated is written or is the default. -/
theorem placed_of_not_emulated {direction : Option Direction} {nulls : Option Nulls}
    (plain : sorting.emulated direction nulls = none) :
    (if sorting.explicit then nulls else none).getD (sorting.defaultFor (direction.getD .asc)) =
      nulls.getD (sorting.defaultFor (direction.getD .asc)) := by
  cases nulls with
  | none => rw [ite_self]
  | some n =>
    split
    · rfl
    · rename_i implicit
      have default := Option.filter_eq_none_iff.mp plain n rfl
      have same : n = sorting.defaultFor (direction.getD .asc) := by simpa [implicit] using default
      exact same.symm

/-- The written keys of an item compare rows as the item asks for. -/
theorem compare_keys (i : SortItem) (r s : Row α) :
    SortKey.compareAll sorting r s ((i.keys sorting).map (SortKey.map ColumnRef.named)) =
      i.requested.compare sorting r s := by
  cases emulation : sorting.emulated i.direction i.nulls with
  | none =>
    rw [keys, emulation]
    refine Ordering.then_eq.trans ?_
    let compared (n : Nulls) := n.compare (i.direction.getD .asc) (r i.column.named) (s i.column.named)
    exact congrArg compared (placed_of_not_emulated sorting emulation)
  | some n =>
    have wanted : i.nulls = some n := (Option.filter_eq_some_iff.mp emulation).1
    rw [keys, emulation, SortKey.compare, requested, wanted]
    refine (congrArg (Ordering.then _) Ordering.then_eq).trans ?_
    exact n.rank_then_compare _ _ _ _

theorem compare_allKeys (items : List SortItem) (r s : Row α) :
    SortKey.compareAll sorting r s ((items.flatMap (keys sorting)).map (SortKey.map ColumnRef.named)) =
      SortKey.compareAll sorting r s (items.map requested) := by
  induction items with
  | nil => rfl
  | cons i items ih =>
    rw [List.flatMap_cons, List.map_append, SortKey.compareAll_append, compare_keys, ih]
    rfl

end SortItem

end Comparing

def Direction.words : Direction → List String
  | .asc => ["ASC"]
  | .desc => ["DESC"]

def Nulls.words : Nulls → List String
  | .first => ["NULLS", "FIRST"]
  | .last => ["NULLS", "LAST"]

namespace SortKey

section Reading

/-- Passes over words. -/
def skip? (words : List String) (ls : List Lexeme) : Option (List Lexeme) :=
  ls.dropPrefix? (words.map .word)

/-- A column, with what follows it. -/
def column? : List Lexeme → Option (ColumnName × List Lexeme)
  | l :: .symbol '.' :: m :: rest =>
    l.name?.bind fun table => m.name?.map fun name => (⟨some table, name⟩, rest)
  | l :: rest => l.name?.map fun name => (⟨none, name⟩, rest)
  | [] => none

def number? : List Lexeme → Option (Nat × List Lexeme)
  | .word text :: rest =>
    if text ≠ "" ∧ text.toList.all Char.isDigit = true then some (Text.digitsValue text.toList, rest) else none
  | _ => none

/-- A column, or a test whether one is null that gives a number in both cases. -/
def target? (ls : List Lexeme) : Option ((ColumnName × Option (Nat × Nat)) × List Lexeme) :=
  match skip? ["CASE", "WHEN"] ls with
  | none => (column? ls).map fun (c, rest) => ((c, none), rest)
  | some rest => do
    let (c, rest) ← column? rest
    let rest ← skip? ["IS", "NULL", "THEN"] rest
    let (null, rest) ← number? rest
    let rest ← skip? ["ELSE"] rest
    let (other, rest) ← number? rest
    let rest ← skip? ["END"] rest
    return ((c, some (null, other)), rest)

/-- The first choice whose words come next, if any. -/
def choice {β : Type} (words : β → List String) : List β → List Lexeme → Option β × List Lexeme
  | [], ls => (none, ls)
  | b :: choices, ls =>
    match skip? (words b) ls with
    | some rest => (some b, rest)
    | none => choice words choices ls

/-- Reads a key. Nothing may be left over. -/
def read? (ls : List Lexeme) : Option (SortKey ColumnName) := do
  let ((c, ranks), rest) ← target? ls
  let (direction, rest) := choice Direction.words [.asc, .desc] rest
  let (nulls, rest) := choice Nulls.words [.first, .last] rest
  if rest = [] then some ⟨c, ranks, direction, nulls⟩ else none

/-- Reads the keys of an ORDER BY between its commas. Spaces do not matter. -/
def readAll? (q : Quoter) (text : String) : Option (List (SortKey ColumnName)) :=
  (skip? ["ORDER", "BY"] ((q.lexemes text.toList).filter (· ≠ .symbol ' '))).bind fun rest =>
    if rest = [] then some [] else (rest.splitOn (.symbol ',')).mapM read?

/-- The words behind the column. -/
def words {γ : Type} (k : SortKey γ) : List String :=
  (match k.ranks with
    | none => []
    | some (null, other) => ["IS", "NULL", "THEN", toString null, "ELSE", toString other, "END"]) ++
    (k.direction.elim [] Direction.words ++ k.nulls.elim [] Nulls.words)

def tokens (k : SortKey ColumnRef) : List Lexeme :=
  (if k.ranks.isSome then [.word "CASE", .word "WHEN"] else []) ++
    (Identifier.dotted k.column.parts ++ k.words.map .word)

theorem skip?_words (words : List String) (rest : List Lexeme) :
    skip? words (words.map .word ++ rest) = some rest :=
  List.dropPrefix?_append_of_beq rest (beq_self_eq_true _)

/-- A name is not a keyword without quotes. -/
theorem skip?_name {l : Lexeme} {name : String} (named : l.name? = some name) {word : String}
    (keyword : needsQuoting word = true) (words : List String) (rest : List Lexeme) :
    skip? (word :: words) (l :: rest) = none := by
  have other : (l == .word word) = false := by
    rw [beq_eq_false_iff_ne]
    rintro rfl
    simp [Lexeme.name?, keyword] at named
  simp [skip?, List.dropPrefix?, other]

theorem column?_dotted (c : ColumnRef) {rest : List Lexeme} (stops : rest.head? ≠ some (.symbol '.')) :
    column? (Identifier.dotted c.parts ++ rest) = some (c.named, rest) := by
  obtain ⟨_ | table, name⟩ := c
  · change column? (name.lexeme :: rest) = _
    unfold column?
    split
    · rename_i same
      cases same
      exact absurd rfl stops
    · rename_i same
      cases same
      rw [name.lexeme_name]
      rfl
    · rename_i same
      cases same
  · change column? (table.lexeme :: .symbol '.' :: name.lexeme :: rest) = _
    simp [column?, Identifier.lexeme_name, ColumnRef.named]

theorem number?_word (n : Nat) (rest : List Lexeme) : number? (.word (toString n) :: rest) = some (n, rest) := by
  obtain ⟨some, digits, value⟩ := Text.number_digits n
  rw [number?, if_pos ⟨some, digits⟩, value]

theorem dotted_parts (c : ColumnRef) : ∃ (i : Identifier) (rest : List Lexeme),
    Identifier.dotted c.parts = i.lexeme :: rest := by
  obtain ⟨_ | table, name⟩ := c
  · exact ⟨name, [], rfl⟩
  · exact ⟨table, _, rfl⟩

/-- The column and the test of a key are read, and what says how to sort is left. -/
theorem target?_tokens (k : SortKey ColumnRef) :
    target? k.tokens = some ((k.column.named, k.ranks),
      (k.direction.elim [] Direction.words ++ k.nulls.elim [] Nulls.words).map .word) := by
  obtain ⟨c, ranks, direction, nulls⟩ := k
  generalize placed : direction.elim [] Direction.words ++ nulls.elim [] Nulls.words = placing
  have column (words : List String) : column? (Identifier.dotted c.parts ++ words.map .word) =
      some (c.named, words.map .word) := column?_dotted c (by cases words <;> simp)
  cases ranks with
  | none =>
    obtain ⟨i, rest, first⟩ := dotted_parts c
    have value : tokens ⟨c, none, direction, nulls⟩ = Identifier.dotted c.parts ++ placing.map .word := by
      rw [← placed]
      rfl
    have plain : skip? ["CASE", "WHEN"] (Identifier.dotted c.parts ++ placing.map .word) = none := by
      rw [first]
      exact skip?_name i.lexeme_name (by decide) _ _
    rw [value, target?, plain, column]
    rfl
  | some ranks =>
    obtain ⟨null, other⟩ := ranks
    have value : tokens ⟨c, some (null, other), direction, nulls⟩ = ["CASE", "WHEN"].map .word ++
        (Identifier.dotted c.parts ++ (["IS", "NULL", "THEN", toString null, "ELSE", toString other, "END"] ++
          placing).map .word) := by
      rw [← placed]
      rfl
    have test := skip?_words ["IS", "NULL", "THEN"]
      ((toString null :: "ELSE" :: toString other :: "END" :: placing).map Lexeme.word)
    have otherwise := skip?_words ["ELSE"] ((toString other :: "END" :: placing).map Lexeme.word)
    have ending := skip?_words ["END"] (placing.map Lexeme.word)
    simp only [List.map_cons, List.map_nil, List.cons_append, List.nil_append] at test otherwise ending
    rw [value, target?, skip?_words]
    simp only [Option.bind_eq_bind, column, Option.bind_some]
    simp only [List.map_cons, List.cons_append, List.nil_append, test, number?_word, otherwise, ending,
      Option.bind_some]
    rfl

/-- A key is read from its tokens. -/
theorem read?_tokens (k : SortKey ColumnRef) : read? k.tokens = some (k.map ColumnRef.named) := by
  rw [read?, target?_tokens]
  obtain ⟨c, ranks, direction, nulls⟩ := k
  -- nothing but the direction and the placement is left
  rcases direction with _ | _ | _ <;> rcases nulls with _ | _ | _ <;> rfl

end Reading

section Cutting

def text (q : Quoter) (k : SortKey ColumnRef) : String :=
  (if k.ranks.isSome then "CASE WHEN " else "") ++ Vocabulary.columnText q k.column ++ Text.spaced k.words

def lexemes (k : SortKey ColumnRef) : List Lexeme :=
  (if k.ranks.isSome then [.word "CASE", .symbol ' ', .word "WHEN", .symbol ' '] else []) ++
    Identifier.dotted k.column.parts ++ k.words.flatMap fun w => [.symbol ' ', .word w]

theorem text_plain (q : Quoter) (c : ColumnRef) (direction : Option Direction) (nulls : Option Nulls) :
    text q ⟨c, none, direction, nulls⟩ =
      Vocabulary.columnText q c ++ Text.spaced (direction.elim [] Direction.words) ++
        Text.spaced (nulls.elim [] Nulls.words) := by
  simp [text, words, Text.spaced_append, String.append_assoc]

theorem words_plain {γ : Type} (k : SortKey γ) :
    ∀ w ∈ k.words, w ≠ "" ∧ w.toList.all Text.isWordChar = true := by
  have number (n : Nat) : toString n ≠ "" ∧ (toString n).toList.all Text.isWordChar = true :=
    ⟨(Text.number_digits n).1, Text.all_isWordChar_of_digits (Text.number_digits n).2.1⟩
  have ranks : ∀ r : Nat × Nat, ∀ w ∈ ["IS", "NULL", "THEN", toString r.1, "ELSE", toString r.2, "END"],
      w ≠ "" ∧ w.toList.all Text.isWordChar = true := by
    intro r
    simp only [List.forall_mem_cons]
    exact ⟨by decide, by decide, by decide, number r.1, by decide, number r.2, by decide, nofun⟩
  have placing : ∀ w ∈ k.direction.elim [] Direction.words ++ k.nulls.elim [] Nulls.words,
      w ≠ "" ∧ w.toList.all Text.isWordChar = true := by
    rcases k.direction with _ | _ | _ <;> rcases k.nulls with _ | _ | _ <;> decide
  intro w member
  rcases List.mem_append.mp member with ranked | placed
  · cases given : k.ranks with
    | none => rw [given] at ranked; cases ranked
    | some r => rw [given] at ranked; exact ranks r w ranked
  · exact placing w placed

theorem cuts_text {q : Quoter} (legible : q.Legible) {k : SortKey ColumnRef}
    (valid : ∀ i ∈ k.column.parts, i.Valid) : q.Cuts (k.text q) k.lexemes := by
  have test : q.Closes (if k.ranks.isSome then "CASE WHEN " else "")
      (if k.ranks.isSome then [.word "CASE", .symbol ' ', .word "WHEN", .symbol ' '] else []) := by
    split
    · exact legible.closes_plain "CASE WHEN " (by decide) ⟨' ', rfl, by decide⟩
    · exact fun _ => rfl
  exact (test.before (legible.cuts_column valid)).spaced legible k.words_plain

/-- Without its spaces a key is its tokens. -/
theorem filter_lexemes (k : SortKey ColumnRef) : k.lexemes.filter (· ≠ .symbol ' ') = k.tokens := by
  have names : (Identifier.dotted k.column.parts).filter (· ≠ .symbol ' ') = Identifier.dotted k.column.parts := by
    refine List.filter_eq_self.mpr fun l member => ?_
    rcases Identifier.mem_dotted member with named | rfl
    · rw [decide_eq_true_eq]
      rintro rfl
      exact named rfl
    · rfl
  have words (ws : List String) : (ws.flatMap fun w => [Lexeme.symbol ' ', .word w]).filter (· ≠ .symbol ' ') =
      ws.map .word := by
    induction ws with
    | nil => rfl
    | cons w ws ih => simpa using ih
  rw [lexemes, List.filter_append, List.filter_append, names, words, tokens, List.append_assoc]
  split <;> rfl

/-- No comma stands in a key. -/
theorem comma_not_mem_tokens (k : SortKey ColumnRef) : Lexeme.symbol ',' ∉ k.tokens := by
  intro member
  rcases List.mem_append.mp member with test | rest
  · split at test <;> simp at test
  rcases List.mem_append.mp rest with names | words
  · rcases Identifier.mem_dotted names with named | dot
    · exact named rfl
    · cases dot
  · obtain ⟨w, _, same⟩ := List.mem_map.mp words
    cases same

end Cutting

end SortKey

namespace Quoter

variable {q : Quoter}

theorem Separable.closes_comma (separable : q.Separable) : q.Closes ", " [.symbol ',', .symbol ' '] := by
  intro rest
  have cut : ", ".toList ++ rest = ',' :: ' ' :: rest := rfl
  rw [cut, lexemes_mark separable.opening_comma.symm (by decide), lexemes_symbol separable.toLegible (by decide)]
  rfl

theorem Separable.breaks_comma (separable : q.Separable) : q.Breaks ", " :=
  ⟨',', rfl, by decide, separable.closing_comma.symm⟩

/-- Texts with commas between them are cut at the commas. -/
theorem Separable.cuts_join (separable : q.Separable) {α : Type} {text : α → String} {lexemes : α → List Lexeme}
    {xs : List α} (cuts : ∀ x ∈ xs, q.Cuts (text x) (lexemes x)) :
    q.Cuts (Text.join ", " (xs.map text)) (List.intercalate [.symbol ',', .symbol ' '] (xs.map lexemes)) := by
  induction xs with
  | nil => exact fun _ _ => rfl
  | cons x xs ih =>
    have first := cuts x (List.mem_cons_self ..)
    cases xs with
    | nil => simpa [Text.join, List.intercalate] using first
    | cons y ys =>
      have others := ih fun z member => cuts z (List.mem_cons_of_mem x member)
      have whole := (first.closes separable.breaks_comma separable.closes_comma).before others
      simpa only [List.map_cons, Text.join, List.intercalate_cons_cons] using whole

end Quoter

namespace SortKey

theorem filter_intercalate (keys : List (SortKey ColumnRef)) :
    (List.intercalate [.symbol ',', .symbol ' '] (keys.map lexemes)).filter (· ≠ .symbol ' ') =
      List.intercalate [.symbol ','] (keys.map tokens) := by
  induction keys with
  | nil => rfl
  | cons k keys ih =>
    cases keys with
    | nil => simpa [List.intercalate] using k.filter_lexemes
    | cons l keys =>
      simp only [List.map_cons, List.intercalate_cons_cons, List.filter_append, filter_lexemes] at ih ⊢
      rw [ih]
      rfl

theorem intercalate_tokens_ne_nil (k : SortKey ColumnRef) (keys : List (SortKey ColumnRef)) :
    List.intercalate [.symbol ','] ((k :: keys).map tokens) ≠ [] := by
  have own : k.tokens ≠ [] := by
    obtain ⟨i, rest, first⟩ := dotted_parts k.column
    simp [tokens, first]
  cases keys with
  | nil => simpa [List.intercalate] using own
  | cons l keys => simp [List.intercalate_cons_cons]

/-- Keys are read back from their text. -/
theorem readAll?_join {q : Quoter} (separable : q.Separable) {keys : List (SortKey ColumnRef)}
    (valid : ∀ k ∈ keys, ∀ i ∈ k.column.parts, i.Valid) :
    readAll? q ("ORDER BY " ++ Text.join ", " (keys.map (text q))) = some (keys.map (map ColumnRef.named)) := by
  have begins : q.Closes "ORDER BY " [.word "ORDER", .symbol ' ', .word "BY", .symbol ' '] :=
    separable.closes_plain "ORDER BY " (by decide) ⟨' ', rfl, by decide⟩
  have cuts := separable.cuts_join fun k member => cuts_text separable.toLegible (valid k member)
  have cut := (begins.before cuts).lexemes
  rw [readAll?, cut, List.filter_append, filter_intercalate]
  have skipped := skip?_words ["ORDER", "BY"] (List.intercalate [.symbol ','] (keys.map tokens))
  refine (congrArg (Option.bind · _) skipped).trans ?_
  rw [Option.bind_some]
  cases keys with
  | nil => rfl
  | cons k keys =>
    have apart : ∀ ls ∈ (k :: keys).map tokens, Lexeme.symbol ',' ∉ ls := by
      intro ls member
      obtain ⟨l, _, rfl⟩ := List.mem_map.mp member
      exact l.comma_not_mem_tokens
    rw [if_neg (intercalate_tokens_ne_nil k keys), List.splitOn_intercalate _ apart (by simp)]
    generalize k :: keys = all
    induction all with
    | nil => rfl
    | cons l others ih => simp [List.mapM_cons, read?_tokens, ih]

end SortKey

/-- Documents with commas between them add texts with commas between them. -/
theorem Doc.Adds.commas {ctx : Context} {α : Type} {doc : α → Doc} {text : α → String} {xs : List α}
    (adds : ∀ x ∈ xs, (doc x).Adds ctx (text x)) :
    (Doc.commas (xs.map doc)).Adds ctx (Text.join ", " (xs.map text)) := by
  induction xs with
  | nil => exact .empty
  | cons x xs ih =>
    have first := adds x (List.mem_cons_self ..)
    cases xs with
    | nil => exact first
    | cons y ys => exact (first.append .text).append (ih fun z member => adds z (List.mem_cons_of_mem x member))

/-- A tree without parameters and literals that are bound is rendered in one way whether values are bound or not. -/
theorem Tree.render_closed {k : Kind} {t : Tree k} (closed : t.occurrences = []) {dialect : Dialect}
    {options : RenderOptions} {text : String} (adds : (t.doc dialect.toStyle).Adds ⟨dialect, options⟩ text) :
    (t.render dialect options).result = .ok ⟨text, []⟩ := by
  cases mode : options.mode with
  | inline => exact Tree.render_adds mode adds
  | bind =>
    have tight : t.loose = [] := by rw [← t.loose_occurrences, closed]; rfl
    have kept : (t.numbered .start).1 = t := by
      rw [← t.number_getD, t.number_eq_none_iff.mpr tight]
      rfl
    have bindable : t.firstValueless? = none := by
      rw [← kept, t.firstValueless?_numbered, closed]
      rfl
    rw [t.render_bind dialect mode, kept]
    simp only [bindable]
    exact Tree.renderOn_adds adds _

namespace SortItem

def tree (i : SortItem) : Tree .orderItem :=
  OrderItem.make (.column i.column) i.direction i.nulls

section Rendering

variable {ctx : Context} (standard : ctx.dialect.toStyle.StandardRenderers)

theorem direction_adds (direction : Option Direction) :
    (Doc.ofOption direction Render.direction).Adds ctx (Text.spaced (direction.elim [] Direction.words)) := by
  rcases direction with _ | _ | _
  · exact .empty
  · exact .text
  · exact .text

theorem nulls_adds (explicit : Bool) (nulls : Option Nulls) :
    (Doc.when explicit (Doc.ofOption nulls fun n => Doc.text (" " ++ n.keyword))).Adds ctx
      (Text.spaced ((if explicit then nulls else none).elim [] Nulls.words)) := by
  cases explicit with
  | false => exact .empty
  | true =>
    rcases nulls with _ | _ | _
    · exact .empty
    · exact .text
    · exact .text

theorem nullsKey_adds (n : Nulls) {c : ColumnRef} {e : Drawn .expr}
    (own : e.value.Adds ctx (Vocabulary.columnText ctx.dialect.quoter c)) :
    (Render.nullsKey n e).Adds ctx (SortKey.text ctx.dialect.quoter ⟨c, some n.ranks, none, none⟩ ++ ", ") := by
  have tail : Text.spaced (SortKey.words (⟨c, some n.ranks, none, none⟩ : SortKey ColumnRef)) ++ ", " =
      match n with
      | .first => " IS NULL THEN 0 ELSE 1 END, "
      | .last => " IS NULL THEN 1 ELSE 0 END, " := by
    cases n <;> rfl
  rw [SortKey.text, String.append_assoc, tail]
  exact (Doc.Adds.text.append own).append .text

include standard in
/-- An item is written as its keys. -/
theorem tree_adds (i : SortItem) :
    (i.tree.doc ctx.dialect.toStyle).Adds ctx
      (Text.join ", " ((i.keys ctx.dialect.nulls).map (SortKey.text ctx.dialect.quoter))) := by
  obtain ⟨c, direction, nulls⟩ := i
  have drawn : (tree ⟨c, direction, nulls⟩).doc ctx.dialect.toStyle =
      Render.orderItem ctx.dialect.toStyle direction nulls ⟨Expr.column c, ctx.dialect.columnDoc c⟩ := by
    rw [← Expr.doc_column standard]
    exact standard _ _
  rw [drawn, keys]
  generalize written : (if ctx.dialect.nulls.explicit then nulls else none) = placed
  have placing : (Doc.when ctx.dialect.nulls.explicit _).Adds ctx _ := nulls_adds ctx.dialect.nulls.explicit nulls
  rw [written] at placing
  unfold Render.orderItem
  cases ctx.dialect.nulls.emulated direction nulls with
  | none =>
    have whole := ((Doc.Adds.empty.behind (.columnDoc c)).append (direction_adds direction)).append placing
    rw [← SortKey.text_plain] at whole
    exact whole
  | some n =>
    have test : (Render.nullsKey n ⟨Expr.column c, ctx.dialect.columnDoc c⟩).Adds ctx _ :=
      nullsKey_adds n (.columnDoc c)
    have whole := ((test.append (.columnDoc c)).append (direction_adds direction)).append placing
    have texts : Text.join ", " [SortKey.text ctx.dialect.quoter ⟨c, some n.ranks, none, none⟩,
        SortKey.text ctx.dialect.quoter ⟨c, none, direction, placed⟩] =
        SortKey.text ctx.dialect.quoter ⟨c, some n.ranks, none, none⟩ ++ ", " ++
          Vocabulary.columnText ctx.dialect.quoter c ++ Text.spaced (direction.elim [] Direction.words) ++
          Text.spaced (placed.elim [] Nulls.words) := by
      simp only [Text.join, SortKey.text_plain, String.append_assoc]
    rw [← texts] at whole
    exact whole

end Rendering

theorem keys_valid {i : SortItem} (valid : (Expr.column i.column).Valid) (sorting : NullSorting) :
    ∀ k ∈ i.keys sorting, ∀ j ∈ k.column.parts, j.Valid := by
  intro k member
  rcases List.mem_append.mp member with test | value
  · obtain ⟨n, _, rfl⟩ := Option.map_eq_some_iff.mp (Option.mem_toList.mp test)
    exact ColumnRef.parts_valid valid
  · rw [List.mem_singleton.mp value]
    exact ColumnRef.parts_valid valid

end SortItem

theorem Text.join_append (sep : String) {xs ys : List String} (some : xs ≠ []) (some' : ys ≠ []) :
    join sep (xs ++ ys) = join sep xs ++ sep ++ join sep ys := by
  induction xs with
  | nil => exact absurd rfl some
  | cons x xs ih =>
    cases xs with
    | nil =>
      cases ys with
      | nil => exact absurd rfl some'
      | cons y ys => rfl
    | cons z zs =>
      have others := ih (List.cons_ne_nil z zs)
      simp only [List.cons_append, join, String.append_assoc] at others ⊢
      rw [others]

/-- Lists joined one by one are joined as one list when none is empty. -/
theorem Text.join_flatMap {α : Type} (sep : String) {pieces : α → List String} {xs : List α}
    (some : ∀ x ∈ xs, pieces x ≠ []) :
    join sep (xs.flatMap pieces) = join sep (xs.map fun x => join sep (pieces x)) := by
  induction xs with
  | nil => rfl
  | cons x xs ih =>
    have others := ih fun y member => some y (List.mem_cons_of_mem x member)
    cases xs with
    | nil => simp [join]
    | cons y ys =>
      have behind : (y :: ys).flatMap pieces ≠ [] := by
        simp [some y (List.mem_cons_of_mem x (List.mem_cons_self ..))]
      rw [List.flatMap_cons, join_append sep (some x (List.mem_cons_self ..)) behind, others]
      rfl

namespace OrderBy

variable {style : Style} (standard : style.StandardRenderers)

/-- The list of keys that is asked for. -/
def ofItems (items : List SortItem) : Tree .orderBy :=
  OrderBy.ofList (items.map SortItem.tree)

include standard in
theorem doc_ofItems (items : List SortItem) :
    (ofItems items).doc style = Doc.text "ORDER BY " ++ Doc.commas (items.map fun i => i.tree.doc style) := by
  rw [ofItems, OrderBy.ofList, Tree.doc_node standard, Forest.drawn_eq_map, Forest.contents_ofList]
  change Doc.text "ORDER BY " ++
    Doc.commas (((items.map SortItem.tree).map fun t => t.drawn style).map (·.value)) = _
  rw [List.map_map, List.map_map]
  rfl

/-- Columns are no values to bind. -/
theorem occurrences_ofItems (items : List SortItem) : (ofItems items).occurrences = [] := by
  have listed : (Forest.ofList (items.map SortItem.tree) .nil).total Visitor.occurrences = [] := by
    induction items with
    | nil => rfl
    | cons i items ih => exact (Visitor.occurrences_lawful.total_more _ _).trans ih
  change (Tree.node .orderBy (Forest.ofList (items.map SortItem.tree) .nil)).visit Visitor.occurrences = []
  rw [Visitor.occurrences_lawful.visit_node, listed]
  rfl

/-- The keys that are written sort as the items ask for. -/
theorem render_sorts (items : List SortItem) (valid : ∀ i ∈ items, (Expr.column i.column).Valid)
    {dialect : Dialect} (standard : dialect.toStyle.StandardRenderers) (separable : dialect.quoter.Separable)
    (options : RenderOptions) :
    ∃ text keys, ((ofItems items).render dialect options).result = .ok ⟨text, []⟩ ∧
      SortKey.readAll? dialect.quoter text = some keys ∧
      ∀ {α : ColumnName → Type} [∀ c, LinearOrder (α c)] (r s : Row α),
        SortKey.compareAll dialect.nulls r s keys =
          SortKey.compareAll dialect.nulls r s (items.map SortItem.requested) := by
  have adds : ((ofItems items).doc dialect.toStyle).Adds ⟨dialect, options⟩ ("ORDER BY " ++
      Text.join ", " ((items.flatMap (SortItem.keys dialect.nulls)).map (SortKey.text dialect.quoter))) := by
    rw [doc_ofItems standard, List.map_flatMap, Text.join_flatMap]
    · exact .append .text (.commas fun i _ => SortItem.tree_adds standard i)
    · intro i _
      simp [SortItem.keys]
  have named : ∀ k ∈ items.flatMap (SortItem.keys dialect.nulls), ∀ i ∈ k.column.parts, i.Valid := by
    intro k member
    obtain ⟨i, listed, own⟩ := List.mem_flatMap.mp member
    exact SortItem.keys_valid (valid i listed) _ k own
  exact ⟨_, _, Tree.render_closed (occurrences_ofItems items) adds, SortKey.readAll?_join separable named,
    fun r s => SortItem.compare_allKeys dialect.nulls items r s⟩

/-- Nulls last where a descending order has them first: one item is written as two keys. -/
theorem render_sorts_nullsLast :
    let items : List SortItem := [⟨.ofName "a", some .desc, some .last⟩, ⟨.ofName "b", none, none⟩]
    let keys : List (SortKey ColumnName) :=
      [⟨⟨none, "a"⟩, some (1, 0), none, none⟩, ⟨⟨none, "a"⟩, none, some .desc, none⟩,
        ⟨⟨none, "b"⟩, none, none, none⟩]
    let text := "ORDER BY CASE WHEN a IS NULL THEN 1 ELSE 0 END, a DESC, b"
    (∀ i ∈ items, (Expr.column i.column).Valid) ∧
      ((ofItems items).render .implicitNulls .inline).result = .ok ⟨text, []⟩ ∧
      SortKey.readAll? .standard text = some keys ∧
      ∀ r s : Row fun _ => Nat,
        SortKey.compareAll Dialect.implicitNulls.nulls r s keys =
          SortKey.compareAll Dialect.implicitNulls.nulls r s (items.map SortItem.requested) := by
  intro items keys text
  have valid : ∀ i ∈ items, (Expr.column i.column).Valid :=
    List.forall_mem_cons.mpr ⟨ColumnRef.ofName_valid "a" rfl,
      List.forall_mem_cons.mpr ⟨ColumnRef.ofName_valid "b" rfl, nofun⟩⟩
  have standard : Dialect.implicitNulls.toStyle.StandardRenderers := fun _ _ => rfl
  have separable : Dialect.implicitNulls.quoter.Separable := ⟨Quoter.standard_legible, by decide, by decide⟩
  have rendered : ((ofItems items).render .implicitNulls .inline).result = .ok ⟨text, []⟩ := by rfl
  have read : SortKey.readAll? .standard text = some keys := by decide
  obtain ⟨text', keys', rendered', read', sorts⟩ := render_sorts items valid standard separable .inline
  obtain rfl : text' = text := congrArg SqlText.sql (Except.ok.inj (rendered'.symm.trans rendered))
  obtain rfl : keys' = keys := Option.some.inj (read'.symm.trans read)
  exact ⟨valid, rendered, read, fun r s => sorts r s⟩

end OrderBy

end SqlTree

import Mathlib.Data.List.Count
import SqlTree.Build.Expression
import SqlTree.Proofs.LexedText
import SqlTree.Proofs.LiteralReading
import SqlTree.Proofs.Unresolved

/-!
Text with operators of the user's own. Symbols are checked character by character, and what begins a comment or
marks a parameter is made of the same characters. The rest of the text adds no comment and one question mark for
each bound value, so what is read wrongly is in the symbols.
-/
namespace SqlTree

/-- What begins a comment. -/
def commentOpeners : List (List Char) :=
  ["--".toList, "/*".toList]

/-- A comment begins between some lexemes. Quoted names are lexemes of their own. -/
def Lexeme.opensComment (ls : List Lexeme) : Prop :=
  ∃ opener ∈ commentOpeners, opener.map .symbol <:+: ls

/-- A comment begins inside the symbol. -/
def CustomOperator.opensComment (op : CustomOperator) : Prop :=
  ∃ opener ∈ commentOpeners, opener <:+: op.symbol.toList

instance : DecidablePred Lexeme.opensComment := fun ls =>
  inferInstanceAs (Decidable (∃ opener ∈ commentOpeners, opener.map .symbol <:+: ls))

instance : DecidablePred CustomOperator.opensComment := fun op =>
  inferInstanceAs (Decidable (∃ opener ∈ commentOpeners, opener <:+: op.symbol.toList))

/-- Expressions made of columns, literals and operators of the user's own. -/
inductive Operation where
  | column (c : ColumnRef)
  | literal (value : Literal)
  | binary (op : CustomOperator) (lhs rhs : Operation)
  | unary (op : CustomOperator) (operand : Operation)

namespace Operation

def tree : Operation → Expr
  | .column c => .column c
  | .literal value => .literal value
  | .binary op lhs rhs => .customBinary op lhs.tree rhs.tree
  | .unary op operand => .customUnary op operand.tree

def operators : Operation → List CustomOperator
  | .column _ | .literal _ => []
  | .binary op lhs rhs => lhs.operators ++ op :: rhs.operators
  | .unary op operand => op :: operand.operators

/-- The characters of all symbols, in written order. -/
def symbols (e : Operation) : List Char :=
  e.operators.flatMap fun op => op.symbol.toList

/-- The values that can be bound, in written order. -/
def values : Operation → List Literal
  | .column _ => []
  | .literal value => if value.isNull then [] else [value]
  | .binary _ lhs rhs => lhs.values ++ rhs.values
  | .unary _ operand => operand.values

/-- An operand that is put in parentheses. -/
def isOperation : Operation → Bool
  | .column _ | .literal _ => false
  | .binary _ _ _ | .unary _ _ => true

end Operation

namespace Lexeme

section Breaks

variable {α : Type} {p l m : List α} {s : α}

theorem prefix_of_break (fresh : s ∉ p) (found : p <+: l ++ s :: m) : p <+: l := by
  induction l generalizing p with
  | nil =>
    cases p with
    | nil => exact List.nil_prefix
    | cons a p =>
      obtain ⟨rfl, _⟩ := List.cons_prefix_cons.mp found
      exact absurd (List.mem_cons_self ..) fresh
  | cons a l ih =>
    cases p with
    | nil => exact List.nil_prefix
    | cons b p =>
      obtain ⟨rfl, rest⟩ := List.cons_prefix_cons.mp found
      exact List.cons_prefix_cons.mpr ⟨rfl, ih (fun member => fresh (List.mem_cons_of_mem _ member)) rest⟩

/-- What is found around something that does not belong to it is found on one side. -/
theorem infix_break_iff (some : p ≠ []) (fresh : s ∉ p) : p <:+: l ++ s :: m ↔ p <:+: l ∨ p <:+: m := by
  induction l with
  | nil =>
    rw [List.nil_append, List.infix_cons_iff, List.infix_nil]
    refine or_congr_left ⟨fun found => absurd ?_ some, fun empty => absurd empty some⟩
    exact List.prefix_nil.mp (prefix_of_break (l := []) fresh found)
  | cons a l ih =>
    rw [List.cons_append, List.infix_cons_iff, List.infix_cons_iff, ih, ← or_assoc]
    refine or_congr_left (or_congr_left ⟨prefix_of_break (l := a :: l) fresh, fun found => ?_⟩)
    exact found.trans (List.prefix_append (a :: l) (s :: m))

end Breaks

/-- No comment begins with or goes on over this. -/
def Breaks (s : Lexeme) : Prop :=
  ∀ opener ∈ commentOpeners, s ∉ opener.map .symbol

instance : DecidablePred Breaks := fun s =>
  inferInstanceAs (Decidable (∀ opener ∈ commentOpeners, s ∉ opener.map .symbol))

theorem opensComment_break {s : Lexeme} (breaks : s.Breaks) (l m : List Lexeme) :
    opensComment (l ++ s :: m) ↔ opensComment l ∨ opensComment m := by
  have some : ∀ opener ∈ commentOpeners, opener.map Lexeme.symbol ≠ [] := by decide
  constructor
  · rintro ⟨opener, member, found⟩
    exact ((infix_break_iff (some opener member) (breaks opener member)).mp found).imp
      (fun found => ⟨opener, member, found⟩) (fun found => ⟨opener, member, found⟩)
  · rintro (⟨opener, member, found⟩ | ⟨opener, member, found⟩)
    · exact ⟨opener, member, (infix_break_iff (some opener member) (breaks opener member)).mpr (.inl found)⟩
    · exact ⟨opener, member, (infix_break_iff (some opener member) (breaks opener member)).mpr (.inr found)⟩

theorem not_opensComment_nil : ¬opensComment [] := by
  decide

/-- Lexemes that break comments hold none. -/
theorem not_opensComment_of_breaks {ls : List Lexeme} (breaks : ∀ s ∈ ls, s.Breaks) : ¬opensComment ls := by
  induction ls with
  | nil => exact not_opensComment_nil
  | cons s ls ih =>
    intro opens
    rcases (opensComment_break (breaks s (List.mem_cons_self ..)) [] ls).mp opens with before | behind
    · exact not_opensComment_nil before
    · exact ih (fun t member => breaks t (List.mem_cons_of_mem s member)) behind

theorem breaks_of_not_symbol {s : Lexeme} (other : ∀ c, s ≠ .symbol c) : s.Breaks := by
  intro opener _ member
  obtain ⟨c, _, rfl⟩ := List.mem_map.mp member
  exact other c rfl

theorem breaks_dotted {parts : List Identifier} : ∀ s ∈ Identifier.dotted parts, s.Breaks := by
  intro s member
  rcases Identifier.mem_dotted member with named | rfl
  · exact breaks_of_not_symbol fun c same => named (same ▸ rfl)
  · decide

theorem opensComment_symbols (op : CustomOperator) :
    opensComment (op.symbol.toList.map .symbol) ↔ op.opensComment := by
  refine exists_congr fun opener => and_congr_right fun _ => ⟨fun found => ?_, fun found => found.map _⟩
  obtain ⟨part, inside, same⟩ := List.infix_map_iff.mp found
  rwa [List.map_injective_iff.mpr (fun _ _ => Lexeme.symbol.inj) same]

end Lexeme

theorem Identifier.count_dotted (parts : List Identifier) : (Identifier.dotted parts).count (.symbol '?') = 0 := by
  refine List.count_eq_zero.mpr fun member => ?_
  rcases Identifier.mem_dotted member with named | dot
  · exact named rfl
  · cases dot

namespace CustomOperator

def text (q : Quoter) (op : CustomOperator) : String :=
  match op.schema with
  | some schema => "OPERATOR(" ++ q.qualify schema.parts ++ "." ++ op.symbol ++ ")"
  | none => op.symbol

def lexemes (op : CustomOperator) : List Lexeme :=
  match op.schema with
  | some schema =>
    [.word "OPERATOR", .symbol '('] ++ Identifier.dotted schema.parts ++
      .symbol '.' :: (op.symbol.toList.map .symbol ++ [.symbol ')'])
  | none => op.symbol.toList.map .symbol

theorem symbolChars_marks : symbolChars.all (fun c => !Text.isWordChar c) = true := by
  decide

theorem Valid.symbol_marks {op : CustomOperator} (valid : op.Valid) :
    ∀ c ∈ op.symbol.toList, Text.isWordChar c = false := by
  obtain ⟨checked, _⟩ := valid
  unfold check at checked
  split at checked
  · cases checked
  split at checked
  · rename_i plain
    intro c member
    have listed := List.all_eq_true.mp plain c member
    simpa using List.all_eq_true.mp symbolChars_marks c (by simpa using listed)
  · cases checked

variable {q : Quoter} {op : CustomOperator}

theorem closes_text (legible : q.Legible) (valid : op.Valid) (unquoted : q.opening ∉ op.symbol.toList) :
    q.Closes (op.text q) op.lexemes := by
  have symbol : q.Closes op.symbol (op.symbol.toList.map .symbol) := by
    refine Quoter.closes_marks fun c member => ⟨?_, valid.symbol_marks c member⟩
    rintro rfl
    exact unquoted member
  unfold text lexemes
  cases schema : op.schema with
  | none => exact symbol
  | some n =>
    have keyword : q.Closes "OPERATOR(" [.word "OPERATOR", .symbol '('] :=
      legible.closes_plain "OPERATOR(" (by decide) ⟨'(', rfl, by decide⟩
    have dot : q.Breaks "." := legible.breaks ⟨'.', rfl, by decide⟩
    have name := keyword.before (legible.cuts_dotted (valid.2 n schema).2)
    have whole := ((name.closes dot legible.closes_dot).append symbol).append legible.closes_closing
    simpa using whole

theorem opensComment_lexemes (op : CustomOperator) : Lexeme.opensComment op.lexemes ↔ op.opensComment := by
  unfold lexemes
  cases op.schema with
  | none => exact Lexeme.opensComment_symbols op
  | some n =>
    have before : ¬Lexeme.opensComment ([Lexeme.word "OPERATOR", .symbol '('] ++ Identifier.dotted n.parts) :=
      Lexeme.not_opensComment_of_breaks <| List.forall_mem_append.mpr ⟨by decide, Lexeme.breaks_dotted⟩
    rw [Lexeme.opensComment_break (by decide), or_iff_right before, Lexeme.opensComment_break (by decide),
      or_iff_left Lexeme.not_opensComment_nil, Lexeme.opensComment_symbols]

theorem count_lexemes (op : CustomOperator) : op.lexemes.count (.symbol '?') = op.symbol.toList.count '?' := by
  have symbol : (op.symbol.toList.map Lexeme.symbol).count (.symbol '?') = op.symbol.toList.count '?' :=
    List.count_map_of_injective _ _ (fun _ _ => Lexeme.symbol.inj) _
  unfold lexemes
  cases op.schema with
  | none => exact symbol
  | some n => simp [List.count_append, Identifier.count_dotted, symbol]

end CustomOperator

namespace Operation

/-- The text where values are bound by question marks. -/
def text (q : Quoter) : Operation → String
  | .column c => Vocabulary.columnText q c
  | .literal value => if value.isNull then "NULL" else "?"
  | .binary op lhs rhs =>
    side lhs.isOperation (lhs.text q) ++ " " ++ op.text q ++ " " ++ side rhs.isOperation (rhs.text q)
  | .unary op operand => op.text q ++ " " ++ side operand.isOperation (operand.text q)
where
  /-- An operand, in parentheses if need be. -/
  side (wrapped : Bool) (text : String) : String :=
    if wrapped then "(" ++ text ++ ")" else text

def lexemes : Operation → List Lexeme
  | .column c => Identifier.dotted c.parts
  | .literal value => if value.isNull then [.word "NULL"] else [.symbol '?']
  | .binary op lhs rhs =>
    side lhs.isOperation lhs.lexemes ++
      .symbol ' ' :: (op.lexemes ++ .symbol ' ' :: side rhs.isOperation rhs.lexemes)
  | .unary op operand => op.lexemes ++ .symbol ' ' :: side operand.isOperation operand.lexemes
where
  side (wrapped : Bool) (lexemes : List Lexeme) : List Lexeme :=
    if wrapped then .symbol '(' :: (lexemes ++ [.symbol ')']) else lexemes

theorem opensComment_side (wrapped : Bool) (ls : List Lexeme) :
    Lexeme.opensComment (lexemes.side wrapped ls) ↔ Lexeme.opensComment ls := by
  unfold lexemes.side
  split
  · have inner := Lexeme.opensComment_break (s := .symbol '(') (by decide) [] (ls ++ [.symbol ')'])
    rw [List.nil_append] at inner
    rw [inner, or_iff_right Lexeme.not_opensComment_nil, Lexeme.opensComment_break (by decide),
      or_iff_left Lexeme.not_opensComment_nil]
  · exact Iff.rfl

/-- Comments begin in symbols only. -/
theorem opensComment_lexemes (e : Operation) :
    Lexeme.opensComment e.lexemes ↔ ∃ op ∈ e.operators, op.opensComment := by
  induction e with
  | column c =>
    have silent : ¬Lexeme.opensComment (column c).lexemes := Lexeme.not_opensComment_of_breaks Lexeme.breaks_dotted
    simpa [operators] using silent
  | literal value =>
    have silent : ¬Lexeme.opensComment (literal value).lexemes := by
      rw [lexemes]
      split <;> decide
    simpa [operators] using silent
  | binary op lhs rhs left right =>
    rw [lexemes, Lexeme.opensComment_break (by decide), Lexeme.opensComment_break (by decide), opensComment_side,
      opensComment_side, left, right, op.opensComment_lexemes, operators]
    simp [or_and_right, exists_or]
  | unary op operand ih =>
    rw [lexemes, Lexeme.opensComment_break (by decide), opensComment_side, ih, op.opensComment_lexemes, operators]
    simp

theorem count_side (wrapped : Bool) (ls : List Lexeme) :
    (lexemes.side wrapped ls).count (.symbol '?') = ls.count (.symbol '?') := by
  unfold lexemes.side
  split <;> simp

/-- There is a question mark for each value, and those of the symbols. -/
theorem count_lexemes (e : Operation) :
    e.lexemes.count (.symbol '?') = e.values.length + e.symbols.count '?' := by
  induction e with
  | column c => exact Identifier.count_dotted c.parts
  | literal value =>
    rw [lexemes, values]
    split <;> rfl
  | binary op lhs rhs left right =>
    have space : (Lexeme.symbol ' ' == .symbol '?') = false := rfl
    simp only [lexemes, List.count_append, List.count_cons, count_side, left, right, op.count_lexemes, values,
      symbols, operators, List.length_append, List.flatMap_append, List.flatMap_cons, space, Bool.false_eq_true,
      if_false]
    omega
  | unary op operand ih =>
    have space : (Lexeme.symbol ' ' == .symbol '?') = false := rfl
    simp only [lexemes, List.count_append, List.count_cons, count_side, ih, op.count_lexemes, values, symbols,
      operators, List.flatMap_cons, space, Bool.false_eq_true, if_false]
    omega

section Cutting

variable {q : Quoter} (legible : q.Legible)

include legible in
theorem cuts_side (wrapped : Bool) {s : String} {l : List Lexeme} (cuts : q.Cuts s l) :
    q.Cuts (text.side wrapped s) (lexemes.side wrapped l) := by
  unfold text.side lexemes.side
  split
  · have inner := legible.closes_opening.before cuts
    exact (inner.closes (legible.breaks ⟨')', rfl, by decide⟩) legible.closes_closing).cuts
  · exact cuts

include legible in
/-- Quotes that are neither question marks nor in the symbols do not change how the text is cut. -/
theorem cuts_text {e : Operation} (valid : e.tree.Valid) (mark : q.opening ≠ '?')
    (unquoted : ∀ op ∈ e.operators, q.opening ∉ op.symbol.toList) : q.Cuts (e.text q) e.lexemes := by
  have space : q.Breaks " " := legible.breaks ⟨' ', rfl, by decide⟩
  induction e with
  | column c => exact legible.cuts_column (ColumnRef.parts_valid valid)
  | literal value =>
    rw [text, lexemes]
    split
    · exact legible.cuts_word (by decide) (by decide)
    · exact (Quoter.closes_marks (s := "?") fun c member => by
        obtain rfl : c = '?' := by simpa using member
        exact ⟨mark.symm, by decide⟩).cuts
  | binary op lhs rhs left right =>
    obtain ⟨own, atLeft, atRight⟩ := Expr.customBinary_valid.mp valid
    rw [operators, List.forall_mem_append, List.forall_mem_cons] at unquoted
    obtain ⟨before, here, behind⟩ := unquoted
    have first := (cuts_side legible lhs.isOperation (left atLeft before)).closes space legible.closes_space
    have second := (CustomOperator.closes_text legible own here).append legible.closes_space
    have whole := (first.append second).before (cuts_side legible rhs.isOperation (right atRight behind))
    simpa [text, lexemes, String.append_assoc] using whole
  | unary op operand ih =>
    obtain ⟨own, inner⟩ := Expr.customUnary_valid.mp valid
    rw [operators, List.forall_mem_cons] at unquoted
    have first := (CustomOperator.closes_text legible own unquoted.1).append legible.closes_space
    have whole := first.before (cuts_side legible operand.isOperation (ih inner unquoted.2))
    simpa [text, lexemes, String.append_assoc] using whole

end Cutting

end Operation

/-- Writing a document adds a text and parameters to the page, whatever the page. -/
def Doc.Enters (ctx : Context) (d : Doc) (text : String) (entries : List BindParam) : Prop :=
  ∀ w, d.Writes ctx w { w with text := w.text ++ text, params := w.params ++ entries }

namespace Doc.Enters

variable {ctx : Context} {d e : Doc} {s t : String} {xs ys : List BindParam}

theorem of_adds (adds : d.Adds ctx s) : d.Enters ctx s [] := by
  intro w
  rw [List.append_nil]
  exact adds w

theorem append (first : d.Enters ctx s xs) (second : e.Enters ctx t ys) :
    (d ++ e).Enters ctx (s ++ t) (xs ++ ys) := by
  intro w
  refine Doc.Writes.append_iff.mpr ⟨_, first w, ?_⟩
  simpa only [String.append_assoc, List.append_assoc] using
    second { w with text := w.text ++ s, params := w.params ++ xs }

theorem before (first : d.Adds ctx s) (second : e.Enters ctx t ys) : (d ++ e).Enters ctx (s ++ t) ys :=
  (of_adds first).append second

theorem behind (first : d.Enters ctx s xs) (second : e.Adds ctx t) : (d ++ e).Enters ctx (s ++ t) xs := by
  have both := first.append (of_adds second)
  rwa [List.append_nil] at both

end Doc.Enters

/-- A document that adds a text and parameters is rendered as both. -/
theorem Tree.renderOn_enters {k : Kind} {t : Tree k} {ctx : Context} {text : String} {entries : List BindParam}
    (enters : (t.doc ctx.dialect.toStyle).Enters ctx text entries) (reserved : List String) :
    (t.renderOn ctx reserved).result = .ok ⟨text, entries⟩ := by
  have written := enters (ctx.page reserved)
  unfold Doc.Writes at written
  rw [Tree.renderOn_result, written]
  change Except.ok (⟨"" ++ text, [] ++ entries⟩ : SqlText) = _
  rw [String.empty_append, List.nil_append]

namespace Operation

/-- A tree that is written for an expression: literals that are bound are parameters with their values. -/
inductive Stands : Operation → Expr → Prop
  | column (c : ColumnRef) : Stands (.column c) (.column c)
  | null : Stands (.literal .null) (.literal .null)
  | bound {value : Literal} (solid : value.isNull = false) (index : UInt32) :
      Stands (.literal value) (.param (.numbered index (some value)))
  | binary (op : CustomOperator) {lhs rhs : Operation} {l r : Expr} (left : Stands lhs l) (right : Stands rhs r) :
      Stands (.binary op lhs rhs) (.customBinary op l r)
  | unary (op : CustomOperator) {operand : Operation} {t : Expr} (inner : Stands operand t) :
      Stands (.unary op operand) (.customUnary op t)

theorem stands_numbered (e : Operation) (n : Numbering) : Stands e (e.tree.numbered n).1 := by
  induction e generalizing n with
  | column c => exact .column c
  | literal value =>
    cases null : value.isNull with
    | true =>
      obtain rfl := Literal.eq_null null
      exact .null
    | false =>
      rw [tree, Numbering.numbered_literal n null]
      exact .bound null _
  | binary op lhs rhs left right =>
    have numbered : ((binary op lhs rhs).tree.numbered n).1 =
        Expr.customBinary op (lhs.tree.numbered n).1 (rhs.tree.numbered (lhs.tree.numbered n).2).1 := by
      rw [tree, Expr.customBinary, Numbering.numbered_plain n rfl, Forest.numbered_one,
        Numbering.numbered_plain n rfl, Forest.numbered_one, Forest.numbered_one]
      rfl
    rw [numbered]
    exact .binary op (left n) (right _)
  | unary op operand ih =>
    have numbered : ((unary op operand).tree.numbered n).1 = Expr.customUnary op (operand.tree.numbered n).1 := by
      rw [tree, Expr.customUnary, Numbering.numbered_plain n rfl, Forest.numbered_one,
        Numbering.numbered_plain n rfl, Forest.numbered_one]
      rfl
    rw [numbered]
    exact .unary op (ih n)

/-- An expression without values to bind is written as it is. -/
theorem stands_tree {e : Operation} (none : e.values = []) : Stands e e.tree := by
  induction e with
  | column c => exact .column c
  | literal value =>
    cases null : value.isNull with
    | true =>
      obtain rfl := Literal.eq_null null
      exact .null
    | false => simp [values, null] at none
  | binary op lhs rhs left right =>
    obtain ⟨first, second⟩ := List.append_eq_nil_iff.mp none
    exact .binary op (left first) (right second)
  | unary op operand ih => exact .unary op (ih none)

theorem occurrences_tree (e : Operation) : e.tree.occurrences = e.values.map Occurrence.literal := by
  have lawful := Visitor.occurrences_lawful
  induction e with
  | column c => rfl
  | literal value =>
    cases null : value.isNull with
    | true =>
      obtain rfl := Literal.eq_null null
      rfl
    | false =>
      rw [values, null]
      exact Expr.occurrences_literal null
  | binary op lhs rhs left right =>
    rw [Tree.occurrences, tree, Expr.customBinary, lawful.visit_node, lawful.total_one, lawful.visit_node,
      lawful.total_one, lawful.total_one]
    change (lhs.tree.occurrences ++ (rhs.tree.occurrences ++ [])) ++ [] = _
    rw [left, right, List.append_nil, List.append_nil, values, List.map_append]
  | unary op operand ih =>
    rw [Tree.occurrences, tree, Expr.customUnary, lawful.visit_node, lawful.total_one, lawful.visit_node,
      lawful.total_one]
    change (operand.tree.occurrences ++ []) ++ [] = _
    rw [ih, List.append_nil, List.append_nil, values]

/-- Every literal can be bound. -/
theorem firstValueless?_numbered (e : Operation) : (e.tree.numbered .start).1.firstValueless? = none := by
  have bare : e.tree.params = [] := by
    rw [← e.tree.params_occurrences, occurrences_tree, List.filterMap_map]
    exact List.filterMap_eq_nil_iff.mpr fun _ _ => rfl
  rw [Tree.firstValueless?_numbered_eq_none, bare]
  nofun

/-- The entry of a value without a name. -/
def entry (value : Literal) : BindParam :=
  ⟨none, some value⟩

section Rendering

variable {ctx : Context} (standard : ctx.dialect.toStyle.StandardRenderers)
  (supported : ctx.dialect.capabilities.supports Construct.customOperator.feature = true)

theorem Stands.binding {e : Operation} {t : Expr} (stands : Stands e t) :
    Expr.binding? t = if e.isOperation then some 0 else none := by
  cases stands <;> rfl

include supported in
theorem operator_adds (op : CustomOperator) :
    (ctx.dialect.operatorDoc op).Adds ctx (op.text ctx.dialect.quoter) := by
  have needs : (Doc.require .customOperator).Adds ctx "" := .require supported
  unfold Style.operatorDoc CustomOperator.text
  refine needs.behind ?_
  cases op.schema with
  | none => exact .text
  | some n => exact .append (.append (.append (.append .text .text) .text) .text) .text

/-- An operand is in parentheses if it is an operation. -/
theorem Stands.tight_enters {e : Operation} {t : Expr} (stands : Stands e t) {d : Doc} {s : String}
    {entries : List BindParam} (enters : d.Enters ctx s entries) :
    (Render.tight ⟨t, d⟩).Enters ctx (text.side e.isOperation s) entries := by
  unfold Render.tight Render.operand text.side
  rw [stands.binding]
  cases e.isOperation with
  | false => exact enters
  | true => exact (Doc.Enters.before .text enters).behind .text

include standard supported in
/-- What stands for an expression is written as its text, and its values are entered in order. -/
theorem Stands.enters {e : Operation} {t : Expr} (stands : Stands e t)
    (binds : e.values ≠ [] → ctx.options.mode = .bind ∧ ctx.options.placeholder = .positional) :
    (t.doc ctx.dialect.toStyle).Enters ctx (e.text ctx.dialect.quoter) (e.values.map entry) := by
  induction stands with
  | column c =>
    rw [Expr.doc_column standard]
    exact .of_adds (.columnDoc c)
  | null =>
    have drawn : (Expr.literal .null).doc ctx.dialect.toStyle = ctx.dialect.literalDoc .null :=
      (standard _ _).trans (standard _ _)
    rw [drawn]
    exact .of_adds (.append .empty .text)
  | @bound value solid index =>
    have drawn : (Expr.param (.numbered index (some value))).doc ctx.dialect.toStyle =
        ctx.dialect.paramDoc (.numbered index (some value)) := (standard _ _).trans (standard _ _)
    obtain ⟨bind, positional⟩ := binds (by simp [values, solid])
    rw [drawn]
    intro w
    refine (Doc.Writes.param_bind_iff bind).mpr ?_
    rw [ctx.outcome_bindParam rfl, positional]
    simp only [text, values, solid, Bool.false_eq_true, if_false]
    rfl
  | @binary op lhs rhs l r left right ih ih' =>
    have drawn : (Expr.customBinary op l r).doc ctx.dialect.toStyle =
      Render.customBinary ctx.dialect.toStyle op ⟨l, l.doc ctx.dialect.toStyle⟩ ⟨r, r.doc ctx.dialect.toStyle⟩ :=
      (standard _ _).trans (standard _ _)
    have first := left.tight_enters (ih fun some => binds (by simp [values, some]))
    have second := right.tight_enters (ih' fun some => binds (by simp [values, some]))
    rw [drawn, values, List.map_append]
    exact (((first.behind .text).behind (operator_adds supported op)).behind .text).append second
  | @unary op operand t inner ih =>
    have drawn : (Expr.customUnary op t).doc ctx.dialect.toStyle =
      Render.customUnary ctx.dialect.toStyle op ⟨t, t.doc ctx.dialect.toStyle⟩ :=
      (standard _ _).trans (standard _ _)
    rw [drawn, values]
    exact .before ((operator_adds supported op).append .text) (inner.tight_enters (ih binds))

end Rendering

/-- The text of operations opens a comment exactly if a symbol does, and has one question mark for each bound
value besides those of the symbols. -/
theorem render_marks {e : Operation} (valid : e.tree.Valid) {dialect : Dialect}
    (standard : dialect.toStyle.StandardRenderers) (legible : dialect.quoter.Legible)
    (supported : dialect.capabilities.supports Construct.customOperator.feature = true)
    (mark : dialect.quoter.opening ≠ '?') (unquoted : ∀ op ∈ e.operators, dialect.quoter.opening ∉ op.symbol.toList)
    {options : RenderOptions}
    (binds : e.values ≠ [] → options.mode = .bind ∧ options.placeholder = .positional) :
    ∃ text, (e.tree.render dialect options).result = .ok text ∧ text.params = e.values.map entry ∧
      (Lexeme.opensComment (dialect.quoter.lexemes text.sql.toList) ↔ ∃ op ∈ e.operators, op.opensComment) ∧
      (dialect.quoter.lexemes text.sql.toList).count (.symbol '?') =
        text.params.length + e.symbols.count '?' := by
  have cut := (cuts_text legible valid mark unquoted).lexemes
  have rendered : (e.tree.render dialect options).result = .ok ⟨e.text dialect.quoter, e.values.map entry⟩ := by
    cases mode : options.mode with
    | inline =>
      have none : e.values = [] := by
        by_contra some
        rw [(binds some).1] at mode
        cases mode
      rw [e.tree.render_inline dialect mode]
      exact Tree.renderOn_enters ((stands_tree none).enters standard supported binds) []
    | bind =>
      rw [e.tree.render_bind dialect mode]
      simp only [e.firstValueless?_numbered]
      exact Tree.renderOn_enters ((e.stands_numbered .start).enters standard supported binds) _
  refine ⟨_, rendered, rfl, ?_, ?_⟩
  · rw [cut]
    exact e.opensComment_lexemes
  · rw [cut, e.count_lexemes, List.length_map]

/-- `a || (@ 1)`, with the number bound. -/
def concatenated : Operation :=
  .binary ⟨none, "||"⟩ (.column (.ofName "a")) (.unary ⟨none, "@"⟩ (.literal (.integer 1)))

theorem render_marks_concatenated :
    concatenated.tree.Valid ∧
      (concatenated.tree.render .complete (.bind .positional)).result =
        .ok ⟨"a || (@ ?)", [entry (.integer 1)]⟩ ∧
      ¬Lexeme.opensComment (Quoter.standard.lexemes "a || (@ ?)".toList) ∧
      (Quoter.standard.lexemes "a || (@ ?)".toList).count (.symbol '?') = 1 := by
  have operator : ∀ symbol, CustomOperator.check ⟨none, symbol⟩ = .ok () → CustomOperator.Valid ⟨none, symbol⟩ :=
    fun _ checked => ⟨checked, nofun⟩
  have negated : (Operation.unary ⟨none, "@"⟩ (.literal (.integer 1))).tree.Valid :=
    Expr.customUnary_valid.mpr ⟨operator _ rfl, Expr.literal_valid.mpr rfl⟩
  have valid : concatenated.tree.Valid :=
    Expr.customBinary_valid.mpr ⟨operator _ rfl, ColumnRef.ofName_valid "a" rfl, negated⟩
  have standard : Dialect.complete.toStyle.StandardRenderers := fun _ _ => rfl
  have rendered : (concatenated.tree.render .complete (.bind .positional)).result =
      .ok ⟨"a || (@ ?)", [entry (.integer 1)]⟩ := by rfl
  have binds : concatenated.values ≠ [] → (RenderOptions.bind .positional).mode = .bind ∧
      (RenderOptions.bind .positional).placeholder = .positional := fun _ => ⟨rfl, rfl⟩
  obtain ⟨text, again, _, opens, count⟩ :=
    render_marks valid standard Quoter.standard_legible rfl (by decide) (by decide) binds
  obtain rfl : text = ⟨"a || (@ ?)", [entry (.integer 1)]⟩ := Except.ok.inj (again.symm.trans rendered)
  exact ⟨valid, rendered, fun opened => absurd (opens.mp opened) (by decide), count⟩

/-- Two minus signs are accepted as a symbol and begin a comment. A question mark is accepted as well, and cannot be
told from the one of the bound value. -/
theorem symbols_misread :
    let a : Expr := .column (.ofName "a")
    let minus : CustomOperator := ⟨none, "--"⟩
    let mark : CustomOperator := ⟨none, "?"⟩
    CustomOperator.make none "--" = .ok minus ∧
      ((Expr.customBinary minus a (.column (.ofName "b"))).render .complete .inline).result = .ok ⟨"a -- b", []⟩ ∧
      Lexeme.opensComment (Quoter.standard.lexemes "a -- b".toList) ∧
      CustomOperator.make none "?" = .ok mark ∧
      ((Expr.customBinary mark a (.literal (.integer 1))).render .complete (.bind .positional)).result =
        .ok ⟨"a ? ?", [entry (.integer 1)]⟩ ∧
      (Quoter.standard.lexemes "a ? ?".toList).count (.symbol '?') = 2 := by
  exact ⟨by rfl, by rfl, by decide, by rfl, by rfl, by decide⟩

end Operation

end SqlTree

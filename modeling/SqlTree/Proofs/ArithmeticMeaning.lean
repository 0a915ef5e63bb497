import SqlTree.Build.Expression
import SqlTree.Proofs.Drawn
import SqlTree.Proofs.Fragments
import SqlTree.Proofs.Lexemes
import SqlTree.Proofs.ScalarText

/-!
What arithmetic text means. Parentheses are decided from an operator and its two operands, while the text is
read as a whole; both agree unless a product with a quotient or a remainder in it is the right factor of
another product.
-/
namespace SqlTree

/-- Expressions made of columns, integers, operators and negation. -/
inductive Arithmetic where
  | column (c : ColumnRef)
  | integer (n : Int64)
  | operation (op : ArithmeticOp) (lhs rhs : Arithmetic)
  | negate (e : Arithmetic)

/-- Integers for columns, and results for what integers leave open. -/
structure Arithmetic.Meaning where
  column : ColumnName → Int
  quotientByZero : Int → Int
  remainderByZero : Int → Int
  power : Int → Int → Int

namespace Arithmetic

def tree : Arithmetic → Expr
  | .column c => .column c
  | .integer n => .literal (.integer n)
  | .operation op lhs rhs => .arithmetic op lhs.tree rhs.tree
  | .negate e => .negate e.tree

/-- Quotients are truncated, and a remainder has the sign of the dividend. -/
def Meaning.apply (m : Meaning) : ArithmeticOp → Int → Int → Int
  | .add, x, y => x + y
  | .sub, x, y => x - y
  | .mul, x, y => x * y
  | .div, x, y => if y = 0 then m.quotientByZero x else x.tdiv y
  | .mod, x, y => if y = 0 then m.remainderByZero x else x.tmod y
  | .pow, x, y => m.power x y

def value (m : Meaning) : Arithmetic → Int
  | .column c => m.column c.named
  | .integer n => n.toInt
  | .operation op lhs rhs => m.apply op (lhs.value m) (rhs.value m)
  | .negate e => -e.value m

/-- What stands in arithmetic text besides operators. -/
inductive Atom where
  | number (n : Nat)
  | column (c : ColumnName)
  deriving DecidableEq, Repr

def vocabulary : Vocabulary Atom ArithmeticOp where
  sign
    | .symbol '+' => some .add
    | .symbol '-' => some .sub
    | .symbol '*' => some .mul
    | .symbol '/' => some .div
    | .symbol '%' => some .mod
    | .symbol '^' => some .pow
    | _ => none
  constant
    | .word text =>
      if text ≠ "" ∧ text.toList.all Char.isDigit = true then some (.number (Text.digitsValue text.toList))
      else none
    | _ => none
  column := .column
  apart := by
    intro l name named
    match l with
    | .quoted _ => exact ⟨rfl, rfl⟩
    | .word text =>
      refine ⟨rfl, if_neg fun digits => ?_⟩
      have bare := Lexeme.word_name named
      cases cut : text.toList with
      | nil => exact digits.1 (String.toList_eq_nil_iff.mp cut)
      | cons c cs =>
        have first : c.isDigit = true := List.all_eq_true.mp digits.2 c (by rw [cut]; exact List.mem_cons_self ..)
        simp [needsQuoting, cut, first] at bare

/-- A minus sign may also lead an operand. -/
def precedence : Precedence ArithmeticOp where
  leads op := op = .sub
  strength := ArithmeticOp.precedence

/-- The value of a reading. -/
def Meaning.reading (m : Meaning) : Reading.Meaning Atom ArithmeticOp Int where
  operand
    | .number n => n
    | .column c => m.column c
  lead _ x := -x
  join := m.apply

/-- A left operand that is put in parentheses. -/
def wrapsLeft (op : ArithmeticOp) (e : Arithmetic) : Bool :=
  (Expr.binding? e.tree).any fun p => p < op.precedence || (p = op.precedence && op = .pow)

def wrapsRight (op : ArithmeticOp) (e : Arithmetic) : Bool :=
  (Expr.binding? e.tree).any fun p => p < op.precedence ||
    (p = op.precedence && !(Expr.arithmeticOp? e.tree = some op && op.isAssociative))

def wrapsNegated : Arithmetic → Bool
  | .column _ => false
  | .integer n => n.toInt < 0
  | _ => true

/-- The items of the text of an expression. -/
def items : Arithmetic → List (Item Atom ArithmeticOp)
  | .column c => [.operand (.column c.named)]
  | .integer n =>
    match n.toInt with
    | .ofNat k => [.operand (.number k)]
    | .negSucc k => [.sign .sub, .operand (.number (k + 1))]
  | .operation op lhs rhs =>
    Item.enclosed (wrapsLeft op lhs) lhs.items ++ [.sign op] ++ Item.enclosed (wrapsRight op rhs) rhs.items
  | .negate e => [.sign .sub] ++ Item.enclosed e.wrapsNegated e.items

/-- The operators that stand outside parentheses. -/
def shown : Arithmetic → List ArithmeticOp
  | .operation op lhs rhs =>
    op :: (if wrapsLeft op lhs then [] else lhs.shown) ++ (if wrapsRight op rhs then [] else rhs.shown)
  | _ => []

/-- Wherever a product is the right factor of another, there is neither a quotient nor a remainder in it but
in parentheses. -/
def Grouped : Arithmetic → Prop
  | .operation op lhs rhs =>
    lhs.Grouped ∧ rhs.Grouped ∧
      (op = .mul → Expr.arithmeticOp? rhs.tree = some .mul → .div ∉ rhs.shown ∧ .mod ∉ rhs.shown)
  | .negate e => e.Grouped
  | _ => True

instance decidableGrouped : (e : Arithmetic) → Decidable e.Grouped
  | .column _ | .integer _ => .isTrue trivial
  | .negate e => decidableGrouped e
  | .operation op lhs rhs =>
    have := decidableGrouped lhs
    have := decidableGrouped rhs
    inferInstanceAs (Decidable (lhs.Grouped ∧ rhs.Grouped ∧
      (op = .mul → Expr.arithmeticOp? rhs.tree = some .mul → .div ∉ rhs.shown ∧ .mod ∉ rhs.shown)))

/-- An operand without parentheses is no looser than the operator before or behind it. -/
theorem le_of_not_wrapsLeft {op : ArithmeticOp} {e : Arithmetic} {p : Nat} (bound : Expr.binding? e.tree = some p)
    (bare : wrapsLeft op e = false) : op.precedence ≤ p := by
  simp only [wrapsLeft, bound, Option.any_some, Bool.or_eq_false_iff, decide_eq_false_iff_not] at bare
  exact Nat.not_lt.mp bare.1

theorem le_of_not_wrapsRight {op : ArithmeticOp} {e : Arithmetic} {p : Nat} (bound : Expr.binding? e.tree = some p)
    (bare : wrapsRight op e = false) : op.precedence ≤ p := by
  simp only [wrapsRight, bound, Option.any_some, Bool.or_eq_false_iff, decide_eq_false_iff_not] at bare
  exact Nat.not_lt.mp bare.1

/-- Operators outside parentheses bind at least as tight as the expression. -/
theorem binding_le_shown {e : Arithmetic} {b : ArithmeticOp} (shown : b ∈ e.shown) :
    ∃ p, Expr.binding? e.tree = some p ∧ p ≤ b.precedence := by
  induction e with
  | column | integer | negate => cases shown
  | operation op lhs rhs left right =>
    refine ⟨op.precedence, rfl, ?_⟩
    simp only [Arithmetic.shown, List.mem_append, List.mem_cons, List.mem_ite_nil_left, Bool.not_eq_true] at shown
    obtain (rfl | ⟨bare, inside⟩) | ⟨bare, inside⟩ := shown
    · exact Nat.le_refl _
    · obtain ⟨p, bound, below⟩ := left inside
      exact (le_of_not_wrapsLeft bound bare).trans below
    · obtain ⟨p, bound, below⟩ := right inside
      exact (le_of_not_wrapsRight bound bare).trans below

/-- The one operator that takes a right operand of its own strength as it is repeats it. -/
theorem repeats_of_not_wrapsRight {op b : ArithmeticOp} {e : Arithmetic} (bare : wrapsRight op e = false)
    (shown : b ∈ e.shown) (same : b.precedence = op.precedence) :
    Expr.arithmeticOp? e.tree = some op ∧ op.isAssociative = true := by
  obtain ⟨p, bound, below⟩ := binding_le_shown shown
  have above := le_of_not_wrapsRight bound bare
  have level : p = op.precedence := by omega
  simp only [wrapsRight, bound, Option.any_some, Bool.or_eq_false_iff] at bare
  simpa [level] using bare.2

/-- Sums take a right operand apart, and so do products if only products are in it. -/
theorem apply_regroup (m : Meaning) {op b : ArithmeticOp} (associative : op.isAssociative = true)
    (same : b.precedence = op.precedence) (product : op = .mul → b = .mul) (x y z : Int) :
    m.apply op x (m.apply b y z) = m.apply b (m.apply op x y) z := by
  cases op with
  | add =>
    cases b with
    | add => exact (Int.add_assoc x y z).symm
    | sub => exact (Int.add_sub_assoc x y z).symm
    | _ => cases same
  | mul =>
    obtain rfl := product rfl
    exact (Int.mul_assoc x y z).symm
  | _ => cases associative

/-- The text of a grouped expression is read with the value of the expression. -/
theorem Grouped.reads {e : Arithmetic} (grouped : e.Grouped) :
    ∃ t, precedence.Reads (· ∈ e.shown) e.items t ∧ ∀ m : Meaning, t.value m.reading = e.value m := by
  induction e with
  | column c => exact ⟨_, .operand _, fun _ => rfl⟩
  | integer n =>
    simp only [items, value]
    cases n.toInt with
    | ofNat k => exact ⟨_, .operand _, fun _ => rfl⟩
    | negSucc k => exact ⟨_, .lead rfl (.operand _), fun _ => rfl⟩
  | negate e ih =>
    obtain ⟨t, reads, same⟩ := ih grouped
    have tight : precedence.Reads (fun _ => False) (Item.enclosed e.wrapsNegated e.items) t := by
      refine (reads.enclosed e.wrapsNegated).mono fun b shown => ?_
      cases e with
      | column | integer => cases shown.2
      | operation | negate => cases shown.1
    exact ⟨.lead .sub t, .lead rfl tight, fun m => congrArg (-·) (same m)⟩
  | operation op lhs rhs left right =>
    obtain ⟨l, before, atLeft⟩ := left grouped.1
    obtain ⟨r, after, atRight⟩ := right grouped.2.1
    have joins : 0 < precedence.strength op := by cases op <;> decide
    have before' : precedence.Reads (fun b => b ∈ (operation op lhs rhs).shown ∧ op.precedence ≤ b.precedence)
        (Item.enclosed (wrapsLeft op lhs) lhs.items) l := by
      refine (before.enclosed _).mono fun b shown => ⟨by simp [Arithmetic.shown, shown], ?_⟩
      obtain ⟨p, bound, below⟩ := binding_le_shown shown.2
      exact (le_of_not_wrapsLeft bound shown.1).trans below
    have stronger : ∀ b, wrapsRight op rhs = false ∧ b ∈ rhs.shown → op.precedence ≤ b.precedence := by
      rintro b ⟨bare, shown⟩
      obtain ⟨p, bound, below⟩ := binding_le_shown shown
      exact (le_of_not_wrapsRight bound bare).trans below
    obtain ⟨t, reads, parts⟩ := Precedence.Reads.regroup joins before' (after.enclosed (wrapsRight op rhs))
      (List.mem_cons_self ..) (fun b shown => by simp [Arithmetic.shown, shown]) stronger
    refine ⟨t, ?_, fun m => ?_⟩
    · rw [items, List.append_assoc]
      exact reads
    · have law : ∀ b, wrapsRight op rhs = false ∧ b ∈ rhs.shown → b.precedence = op.precedence →
          ∀ x y z, m.apply op x (m.apply b y z) = m.apply b (m.apply op x y) z := by
        rintro b ⟨bare, shown⟩ same x y z
        obtain ⟨repeated, associative⟩ := repeats_of_not_wrapsRight bare shown same
        refine apply_regroup m associative same (fun product => ?_) x y z
        subst product
        obtain ⟨quotients, remainders⟩ := grouped.2.2 rfl repeated
        cases b with
        | mul => rfl
        | div => exact absurd shown quotients
        | mod => exact absurd shown remainders
        | _ => cases same
      rw [parts m.reading law, atLeft m, atRight m]
      rfl

/-- An integer begins with a minus sign when it is negative. -/
theorem startsMinus_integer (n : Int) : Text.startsMinus (toString n) = decide (n < 0) := by
  cases n with
  | ofNat k =>
    have digits : ∀ c ∈ (toString k).toList, c.isDigit = true := by
      intro c member
      exact Nat.isDigit_of_mem_toDigits (b := 10) (by decide) (by decide) (by simpa using member)
    have unsigned : Text.startsMinus (toString k) = false := by
      unfold Text.startsMinus
      cases cut : (toString k).toList with
      | nil => rfl
      | cons c cs =>
        have first := digits c (by rw [cut]; exact List.mem_cons_self ..)
        have other : c ≠ '-' := by
          rintro rfl
          cases first
        simpa using other
    exact unsigned.trans (decide_eq_false (Int.not_lt.mpr (Int.natCast_nonneg k))).symm
  | negSucc k =>
    have signed : Text.startsMinus ("-" ++ toString (k + 1)) = true := by
      rw [Text.startsMinus_append _ (by decide)]
      rfl
    rw [decide_eq_true (Int.negSucc_lt_zero k)]
    exact signed

/-- A name does not begin with a minus sign. -/
theorem quoteIfNeeded_unsigned {q : Quoter} (legible : q.Legible) {i : Identifier} (valid : i.Valid) :
    Text.isUnsigned (q.quoteIfNeeded i) = true := by
  unfold Quoter.quoteIfNeeded
  split
  · have other : q.opening ≠ '-' := fun same => legible.apart (same ▸ by decide)
    simp [Text.isUnsigned, Quoter.quote, Text.quoted, other]
  · rename_i bare
    have words := Identifier.word_of_bare bare
    unfold Text.isUnsigned
    cases cut : i.value.toList with
    | nil => exact absurd (String.toList_eq_nil_iff.mp cut) valid.ne_empty
    | cons c cs =>
      rw [cut, List.all_cons, Bool.and_eq_true] at words
      have other : c ≠ '-' := by
        rintro rfl
        cases words.1
      simpa using other

theorem columnText_startsMinus {q : Quoter} (legible : q.Legible) {c : ColumnRef}
    (tables : ∀ table ∈ c.qualifier, table.Valid) (valid : c.name.Valid) :
    Text.startsMinus (Vocabulary.columnText q c) = false := by
  obtain ⟨_ | table, name⟩ := c
  · rw [Vocabulary.columnText, String.empty_append]
    exact Text.isUnsigned.startsMinus (quoteIfNeeded_unsigned legible valid)
  · have unsigned := quoteIfNeeded_unsigned legible (tables table rfl)
    rw [Vocabulary.columnText, String.append_assoc, Text.startsMinus_append _ (Text.isUnsigned.ne_empty unsigned)]
    exact Text.isUnsigned.startsMinus unsigned

section Rendering

variable {ctx : Context} (standard : ctx.dialect.toStyle.StandardRenderers) (legible : ctx.dialect.quoter.Legible)
  (symbols : ctx.dialect.arithmetic = ArithmeticOp.symbol)
  (powers : ctx.dialect.capabilities.supports .exponentiation = true)

include legible in
theorem marks_operator (op : ArithmeticOp) :
    vocabulary.Marks ctx.dialect.quoter (" " ++ (op.symbol ++ " ")) [.sign op] := by
  have space : vocabulary.Marks ctx.dialect.quoter " " [] := Vocabulary.marks_symbol legible rfl (by decide) rfl
  have mark : vocabulary.Marks ctx.dialect.quoter op.symbol [.sign op] := by
    cases op <;> exact Vocabulary.marks_symbol legible rfl (by decide) rfl
  exact space.append (mark.append space)

include legible in
theorem marks_minus : vocabulary.Marks ctx.dialect.quoter "-" [.sign .sub] :=
  Vocabulary.marks_symbol legible rfl (by decide) rfl

include legible in
theorem spells_number (n : Nat) : vocabulary.Spells ctx.dialect.quoter (toString n) [.operand (.number n)] := by
  obtain ⟨some, digits, number⟩ := Text.number_digits n
  have known : vocabulary.constant (.word (toString n)) = .some (.number n) := by
    change (if _ then _ else _) = _
    rw [if_pos ⟨some, digits⟩, number]
  refine Vocabulary.spells_word legible some (Text.all_isWordChar_of_digits digits) ?_
  change Option.map _ (Option.map _ (vocabulary.constant _)) = _
  rw [known]
  rfl

include legible in
theorem spells_integer (n : Int64) :
    vocabulary.Spells ctx.dialect.quoter (toString n.toInt) (integer n).items := by
  simp only [items]
  cases n.toInt with
  | ofNat k => exact spells_number legible k
  | negSucc k => exact (marks_minus legible).before (spells_number legible (k + 1))

include standard in
theorem doc_column (c : ColumnRef) : (column c).tree.doc ctx.dialect.toStyle = ctx.dialect.columnDoc c :=
  (standard _ _).trans (standard _ _)

include standard in
theorem doc_integer (n : Int64) :
    (integer n).tree.doc ctx.dialect.toStyle = Doc.empty ++ Doc.text (toString n.toInt) :=
  (standard _ _).trans (standard _ _)

include standard legible in
/-- What a minus sign stands before is in parentheses if it begins with another. -/
theorem negate_shows {e : Arithmetic} (valid : e.tree.Valid)
    (shows : (e.tree.doc ctx.dialect.toStyle).Shows vocabulary ctx e.items) :
    (Render.negate ⟨e.tree, e.tree.doc ctx.dialect.toStyle⟩).Shows vocabulary ctx (negate e).items := by
  refine .lead (marks_minus legible) ?_
  cases e with
  | operation | negate => exact shows.wrap legible
  | column c =>
    have named := Expr.column_valid.mp valid
    rw [doc_column standard]
    have adds : (Doc.afterMinus (ctx.dialect.columnDoc c)).Adds ctx _ := .afterMinus (.columnDoc c)
    rw [Text.guardMinus_eq, if_neg (by simp [columnText_startsMinus legible named.1 named.2])] at adds
    exact ⟨_, adds, Vocabulary.spells_column legible named.1 named.2⟩
  | integer n =>
    rw [doc_integer standard]
    have adds : (Doc.afterMinus (Doc.empty ++ Doc.text (toString n.toInt))).Adds ctx _ :=
      .afterMinus (.append .empty .text)
    rw [String.empty_append] at adds
    have spells := spells_integer legible n
    refine ⟨_, adds, ?_⟩
    rw [Text.guardMinus_eq, startsMinus_integer]
    by_cases negative : n.toInt < 0
    · simp only [wrapsNegated, negative, decide_true, if_true]
      exact (spells.wrap legible).spells
    · simp only [wrapsNegated, negative, decide_false, Bool.false_eq_true, if_false]
      exact spells

include standard legible symbols powers in
/-- An expression is written, and its text is read as its items. -/
theorem tree_shows {e : Arithmetic} (valid : e.tree.Valid) :
    (e.tree.doc ctx.dialect.toStyle).Shows vocabulary ctx e.items := by
  induction e with
  | column c =>
    have named := Expr.column_valid.mp valid
    rw [doc_column standard]
    exact ⟨_, .columnDoc c, Vocabulary.spells_column legible named.1 named.2⟩
  | integer n =>
    rw [doc_integer standard]
    refine ⟨_, Doc.Adds.empty.append .text, ?_⟩
    rw [String.empty_append]
    exact spells_integer legible n
  | negate e ih =>
    have below := Expr.negate_valid.mp valid
    have drawn : (negate e).tree.doc ctx.dialect.toStyle = Render.negate ⟨e.tree, e.tree.doc ctx.dialect.toStyle⟩ :=
      (standard _ _).trans (standard _ _)
    rw [drawn]
    exact negate_shows standard legible below (ih below)
  | operation op lhs rhs left right =>
    obtain ⟨first, second⟩ := Expr.arithmetic_valid.mp valid
    have drawn : (operation op lhs rhs).tree.doc ctx.dialect.toStyle =
      Render.arithmetic ctx.dialect.toStyle op ⟨lhs.tree, lhs.tree.doc ctx.dialect.toStyle⟩
        ⟨rhs.tree, rhs.tree.doc ctx.dialect.toStyle⟩ := (standard _ _).trans (standard _ _)
    rw [drawn]
    have required : (Doc.when (op = .pow) (Doc.require .power)).Adds ctx "" := by
      cases op <;> first | exact .empty | exact .require powers
    simp only [Render.arithmetic, symbols, String.append_assoc]
    have before := (left first).operand legible (t := lhs.tree) fun p =>
      p < op.precedence || (p = op.precedence && op = .pow)
    have after := (right second).operand legible (t := rhs.tree) fun p => p < op.precedence ||
      (p = op.precedence && !(Expr.arithmeticOp? rhs.tree = some op && op.isAssociative))
    exact (before.behind required).join (by simp) (marks_operator legible op) after

end Rendering

/-- Arithmetic text means what the tree means. In a dialect with the standard renderers and operators that has
powers every expression is rendered; if products are grouped, reading the text by the binding strength of the
operators gives an expression of the same value, whatever the columns hold. -/
theorem render_value {e : Arithmetic} (valid : e.tree.Valid) {dialect : Dialect}
    (standard : dialect.toStyle.StandardRenderers) (symbols : dialect.arithmetic = ArithmeticOp.symbol)
    (legible : dialect.quoter.Legible) (powers : dialect.capabilities.supports .exponentiation = true)
    {options : RenderOptions} (inline : options.mode = .inline) :
    ∃ text, (e.tree.render dialect options).result = .ok ⟨text, []⟩ ∧
      (e.Grouped → ∃ t, vocabulary.read precedence dialect.quoter text = some t ∧
        ∀ m : Meaning, t.value m.reading = e.value m) := by
  have shows : (e.tree.doc dialect.toStyle).Shows vocabulary ⟨dialect, options⟩ e.items :=
    tree_shows standard legible symbols powers valid
  obtain ⟨text, rendered, read⟩ := Tree.render_shown inline shows
  refine ⟨text, rendered, fun grouped => ?_⟩
  obtain ⟨t, reads, same⟩ := grouped.reads
  exact ⟨t, (read precedence).trans reads.read, same⟩

/-- A column by its bare name. -/
def ofName (name : String) : Arithmetic :=
  .column ⟨none, ⟨name, .none⟩⟩

theorem ofName_valid (name : String) (some : Text.isBlank name = false) : (ofName name).tree.Valid :=
  Expr.column_valid.mpr ⟨nofun, Identifier.valid_of_text some⟩

theorem integer_valid (n : Int64) : (integer n).tree.Valid :=
  Expr.literal_valid.mpr rfl

theorem negate_valid {e : Arithmetic} (valid : e.tree.Valid) : (negate e).tree.Valid :=
  Expr.negate_valid.mpr valid

theorem operation_valid (op : ArithmeticOp) {lhs rhs : Arithmetic} (first : lhs.tree.Valid)
    (second : rhs.tree.Valid) : (operation op lhs rhs).tree.Valid :=
  Expr.arithmetic_valid.mpr ⟨first, second⟩

/-- `(a + 1) * (b * a ^ b) - -(-5)` -/
def nested : Arithmetic :=
  .operation .sub
    (.operation .mul (.operation .add (ofName "a") (.integer 1))
      (.operation .mul (ofName "b") (.operation .pow (ofName "a") (ofName "b"))))
    (.negate (.integer (-5)))

theorem render_value_nested :
    nested.tree.Valid ∧ nested.Grouped ∧
      (nested.tree.render ⟨.standard, .all⟩ .inline).result = .ok ⟨"(a + 1) * b * a ^ b - -(-5)", []⟩ ∧
      ∃ t, vocabulary.read precedence .standard "(a + 1) * b * a ^ b - -(-5)" = some t ∧
        ∀ m : Meaning, t.value m.reading = nested.value m := by
  have a := ofName_valid "a" rfl
  have b := ofName_valid "b" rfl
  have product := operation_valid .mul (operation_valid .add a (integer_valid 1))
    (operation_valid .mul b (operation_valid .pow a b))
  have valid : nested.tree.Valid := operation_valid .sub product (negate_valid (integer_valid (-5)))
  have grouped : nested.Grouped := by decide
  have rendered : (nested.tree.render ⟨.standard, .all⟩ .inline).result =
      .ok ⟨"(a + 1) * b * a ^ b - -(-5)", []⟩ := by rfl
  have standard : (Dialect.mk .standard .all).toStyle.StandardRenderers := fun _ _ => rfl
  have inline : RenderOptions.inline.mode = .inline := rfl
  obtain ⟨text, rendered', meant⟩ := render_value valid standard rfl Quoter.standard_legible rfl inline
  obtain rfl : text = _ := congrArg SqlText.sql (Except.ok.inj (rendered'.symm.trans rendered))
  exact ⟨valid, grouped, rendered, meant grouped⟩

/-- `a * (b / c * d)` -/
def factored : Arithmetic :=
  .operation .mul (ofName "a") (.operation .mul (.operation .div (ofName "b") (ofName "c")) (ofName "d"))

/-- The parentheses around a product with a quotient in it are left out, and the quotient takes all that is
before it. -/
theorem factored_loses_grouping :
    factored.tree.Valid ∧
      (factored.tree.render ⟨.standard, .all⟩ .inline).result = .ok ⟨"a * b / c * d", []⟩ ∧
      ∃ (t : Reading Atom ArithmeticOp) (m : Meaning),
        vocabulary.read precedence .standard "a * b / c * d" = some t ∧
          t.value m.reading = 2 ∧ factored.value m = 0 := by
  have valid : factored.tree.Valid := operation_valid .mul (ofName_valid _ rfl)
    (operation_valid .mul (operation_valid .div (ofName_valid _ rfl) (ofName_valid _ rfl)) (ofName_valid _ rfl))
  let column (name : String) : Reading Atom ArithmeticOp := .operand (.column ⟨none, name⟩)
  let m : Meaning := ⟨fun c => if c.name = "b" then 1 else 2, id, id, fun x _ => x⟩
  exact ⟨valid, by rfl,
    .join .mul (.join .div (.join .mul (column "a") (column "b")) (column "c")) (column "d"), m,
    by rfl, by rfl, by rfl⟩

end Arithmetic

end SqlTree

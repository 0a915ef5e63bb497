import Mathlib.Data.Fintype.Order
import SqlTree.Build.Condition
import SqlTree.Proofs.BuiltValid
import SqlTree.Proofs.Drawn
import SqlTree.Proofs.Lexemes

/-!
What the text of a condition means. Parentheses are decided from a predicate and the predicates right below
it, and a condition made of an expression adds nothing to the text. So a predicate in an expression hides
its connective: the text means what the tree means unless such a connective stands where it had to be in
parentheses.
-/
namespace SqlTree

/-- Predicates made of columns, connectives and negation, and of predicates in expressions. -/
inductive Condition where
  | column (c : ColumnRef)
  | embedded (p : Condition)
  | negation (p : Condition)
  | connective (op : LogicalOp) (lhs rhs : Condition)

/-- Truth values for columns, and their negation. -/
structure Condition.Meaning (β : Type) where
  column : ColumnName → β
  negation : β → β

inductive LogicalSign where
  | negation
  | connective (op : LogicalOp)
  deriving DecidableEq, Repr

namespace Condition

def tree : Condition → Predicate
  | .column c => .of .condition (.node .condition (.one (Expr.column c) .nil))
  | .embedded p => .of .condition (.node .condition (.one (Expr.predicate p.tree) .nil))
  | .negation p => .negation p.tree
  | .connective op lhs rhs => .connective op lhs.tree rhs.tree

section Meaning

variable {β : Type} [Lattice β]

/-- The connectives are meet and join, be there two truth values or three. -/
def Meaning.apply : LogicalOp → β → β → β
  | .and, x, y => x ⊓ y
  | .or, x, y => x ⊔ y

def value (m : Meaning β) : Condition → β
  | .column c => m.column c.named
  | .embedded p => p.value m
  | .negation p => m.negation (p.value m)
  | .connective op lhs rhs => Meaning.apply op (lhs.value m) (rhs.value m)

/-- The value of a reading. Negation joins nothing. -/
def Meaning.reading (m : Meaning β) : Reading.Meaning ColumnName LogicalSign β where
  operand := m.column
  lead _ := m.negation
  join
    | .connective op => Meaning.apply op
    | .negation => fun x _ => x

end Meaning

/-- Keywords in any letter case. -/
def keywordSign (text : String) : Option LogicalSign :=
  if Text.lower text = "not" then some .negation
  else if Text.lower text = "and" then some (.connective .and)
  else if Text.lower text = "or" then some (.connective .or)
  else none

/-- Names are not keywords without quotes. -/
theorem keywordSign_bare {text : String} (bare : needsQuoting text = false) : keywordSign text = none := by
  have free : ¬reservedWords.contains (Text.lower text) = true := by
    intro reserved
    rw [needsQuoting, reserved] at bare
    cases bare
  have other : ∀ word, reservedWords.contains word = true → Text.lower text ≠ word := by
    rintro word reserved rfl
    exact free reserved
  simp only [keywordSign, other "not" (by decide), other "and" (by decide), other "or" (by decide), if_false]

def vocabulary : Vocabulary ColumnName LogicalSign where
  sign
    | .word text => keywordSign text
    | _ => none
  constant _ := none
  column := id
  apart := by
    intro l name named
    match l with
    | .quoted _ => exact ⟨rfl, rfl⟩
    | .word text => exact ⟨keywordSign_bare (Lexeme.word_name named), rfl⟩

/-- Negation leads an operand, and AND binds tighter than OR. -/
def precedence : Precedence LogicalSign where
  leads s := s = .negation
  strength
    | .negation => 0
    | .connective .or => 1
    | .connective .and => 2

/-- What is negated in parentheses. -/
def wrapsNegated (p : Condition) : Bool :=
  (Predicate.connective? p.tree).isSome

/-- A side of a connective that is put in parentheses. -/
def wrapsSide (op : LogicalOp) (p : Condition) : Bool :=
  op = .and ∧ Predicate.connective? p.tree = some .or

/-- The items of the text of a condition. -/
def items : Condition → List (Item ColumnName LogicalSign)
  | .column c => [.operand c.named]
  | .embedded p => p.items
  | .negation p => [.sign .negation] ++ Item.enclosed p.wrapsNegated p.items
  | .connective op lhs rhs =>
    Item.enclosed (wrapsSide op lhs) lhs.items ++ [.sign (.connective op)] ++
      Item.enclosed (wrapsSide op rhs) rhs.items

/-- The connectives that stand outside parentheses. -/
def shown : Condition → List LogicalOp
  | .column _ => []
  | .embedded p => p.shown
  | .negation p => if p.wrapsNegated then [] else p.shown
  | .connective op lhs rhs =>
    op :: (if wrapsSide op lhs then [] else lhs.shown) ++ (if wrapsSide op rhs then [] else rhs.shown)

/-- What is negated without parentheses shows no connective, and a side of an AND without parentheses shows
no OR. -/
def Grouped : Condition → Prop
  | .column _ => True
  | .embedded p => p.Grouped
  | .negation p => p.Grouped ∧ (p.wrapsNegated = false → p.shown = [])
  | .connective op lhs rhs =>
    (lhs.Grouped ∧ rhs.Grouped) ∧
      ∀ side ∈ [lhs, rhs], op = .and → wrapsSide op side = false → .or ∉ side.shown

instance decidableGrouped : (p : Condition) → Decidable p.Grouped
  | .column _ => .isTrue trivial
  | .embedded p => decidableGrouped p
  | .negation p =>
    have := decidableGrouped p
    inferInstanceAs (Decidable (p.Grouped ∧ (p.wrapsNegated = false → p.shown = [])))
  | .connective op lhs rhs =>
    have := decidableGrouped lhs
    have := decidableGrouped rhs
    inferInstanceAs (Decidable ((lhs.Grouped ∧ rhs.Grouped) ∧
      ∀ side ∈ [lhs, rhs], op = .and → wrapsSide op side = false → .or ∉ side.shown))

/-- The signs that stand outside parentheses and join. -/
def Exposed (p : Condition) : LogicalSign → Prop
  | .negation => False
  | .connective op => op ∈ p.shown

/-- No connective outside the parentheses of a side is weaker than the one that joins the sides. -/
theorem Grouped.stronger {op : LogicalOp} {lhs rhs side : Condition} (grouped : (connective op lhs rhs).Grouped)
    (member : side ∈ [lhs, rhs]) {b : LogicalSign} (shown : wrapsSide op side = false ∧ side.Exposed b) :
    precedence.strength (.connective op) ≤ precedence.strength b := by
  obtain ⟨bare, exposed⟩ := shown
  have weak := grouped.2 side member
  cases b with
  | negation => cases exposed
  | connective c =>
    cases op with
    | or => cases c <;> decide
    | and =>
      cases c with
      | and => exact Nat.le_refl _
      | or => exact absurd exposed (weak rfl bare)

/-- The text of a grouped condition is read with the truth value of the condition. -/
theorem Grouped.reads {p : Condition} (grouped : p.Grouped) :
    ∃ t, precedence.Reads p.Exposed p.items t ∧
      ∀ {β : Type} [Lattice β] (m : Meaning β), t.value m.reading = p.value m := by
  induction p with
  | column c => exact ⟨_, .operand _, fun _ => rfl⟩
  | embedded p ih =>
    obtain ⟨t, reads, same⟩ := ih grouped
    exact ⟨t, reads.mono fun | .connective _, shown => shown, same⟩
  | negation p ih =>
    obtain ⟨t, reads, same⟩ := ih grouped.1
    have tight : precedence.Reads (fun _ => False) (Item.enclosed p.wrapsNegated p.items) t := by
      refine (reads.enclosed p.wrapsNegated).mono fun b shown => ?_
      have none := grouped.2 shown.1
      cases b with
      | negation => exact shown.2
      | connective op =>
        have inside : op ∈ p.shown := shown.2
        rw [none] at inside
        cases inside
    exact ⟨.lead .negation t, .lead rfl tight, fun m => congrArg m.negation (same m)⟩
  | connective op lhs rhs left right =>
    obtain ⟨l, before, atLeft⟩ := left grouped.1.1
    obtain ⟨r, after, atRight⟩ := right grouped.1.2
    have joins : 0 < precedence.strength (.connective op) := by cases op <;> decide
    have onLeft : ∀ b, wrapsSide op lhs = false ∧ lhs.Exposed b → (connective op lhs rhs).Exposed b := by
      rintro (_ | c) ⟨bare, shown⟩
      · exact shown
      · simp [Exposed, Condition.shown, bare, show c ∈ lhs.shown from shown]
    have onRight : ∀ b, wrapsSide op rhs = false ∧ rhs.Exposed b → (connective op lhs rhs).Exposed b := by
      rintro (_ | c) ⟨bare, shown⟩
      · exact shown
      · simp [Exposed, Condition.shown, bare, show c ∈ rhs.shown from shown]
    have before' := (before.enclosed (wrapsSide op lhs)).mono fun b shown =>
      And.intro (onLeft b shown) (grouped.stronger (by simp) shown)
    obtain ⟨t, reads, parts⟩ := Precedence.Reads.regroup joins before' (after.enclosed (wrapsSide op rhs))
      (List.mem_cons_self .. : op ∈ (connective op lhs rhs).shown) onRight fun b => grouped.stronger (by simp)
    refine ⟨t, ?_, fun {β} _ m => ?_⟩
    · rw [items, List.append_assoc]
      exact reads
    · -- connectives of one strength are the same one, and each is associative
      have law : ∀ b, wrapsSide op rhs = false ∧ rhs.Exposed b →
          precedence.strength b = precedence.strength (.connective op) →
          ∀ x y z, m.reading.join (.connective op) x (m.reading.join b y z) =
            m.reading.join b (m.reading.join (.connective op) x y) z := by
        rintro (_ | c) ⟨_, shown⟩ same x y z
        · cases shown
        · cases op <;> cases c
          · exact (inf_assoc x y z).symm
          · cases same
          · cases same
          · exact (sup_assoc x y z).symm
      rw [parts m.reading law, atLeft m, atRight m]
      rfl

section Rendering

variable {ctx : Context} (standard : ctx.dialect.toStyle.StandardRenderers) (legible : ctx.dialect.quoter.Legible)

include legible in
theorem marks_not : vocabulary.Marks ctx.dialect.quoter "NOT " [.sign .negation] :=
  Vocabulary.marks_word legible "NOT" (by decide) rfl rfl

include legible in
theorem marks_connective (op : LogicalOp) :
    vocabulary.Marks ctx.dialect.quoter
      (match op with
        | .and => " AND "
        | .or => " OR ")
      [.sign (.connective op)] := by
  have space : vocabulary.Marks ctx.dialect.quoter " " [] := Vocabulary.marks_symbol legible rfl (by decide) rfl
  cases op with
  | and => simpa using space.append (Vocabulary.marks_word legible "AND" (by decide) rfl rfl)
  | or => simpa using space.append (Vocabulary.marks_word legible "OR" (by decide) rfl rfl)

include legible in
/-- A side shows its items, in parentheses if it is put in parentheses. -/
theorem side_shows (op : LogicalOp) {p : Condition} {d : Doc} (shows : d.Shows vocabulary ctx p.items) :
    (Render.joined op ⟨p.tree, d⟩).Shows vocabulary ctx (Item.enclosed (wrapsSide op p) p.items) := by
  unfold Render.joined
  split
  · rename_i wrapped
    rw [wrapsSide, decide_eq_true wrapped]
    exact shows.wrap legible
  · rename_i bare
    rw [wrapsSide, decide_eq_false bare]
    exact shows

include standard legible in
/-- A condition is written, and its text is read as its items. -/
theorem tree_shows {p : Condition} (valid : p.tree.Valid) :
    (p.tree.doc ctx.dialect.toStyle).Shows vocabulary ctx p.items := by
  induction p with
  | column c =>
    have named := Expr.column_valid.mp (Predicate.condition_valid.mp valid)
    have drawn : (column c).tree.doc ctx.dialect.toStyle = ctx.dialect.columnDoc c :=
      (standard _ _).trans ((standard _ _).trans ((standard _ _).trans (standard _ _)))
    rw [drawn]
    exact ⟨_, .columnDoc c, Vocabulary.spells_column legible named.1 named.2⟩
  | embedded p ih =>
    have inner : p.tree.Valid := Expr.of_valid.mp (Predicate.condition_valid.mp valid)
    -- neither the condition nor the expression that holds the predicate adds to its text
    have drawn : (embedded p).tree.doc ctx.dialect.toStyle = p.tree.doc ctx.dialect.toStyle :=
      (standard _ _).trans ((standard _ _).trans (standard _ _))
    rw [drawn]
    exact ih inner
  | negation p ih =>
    have inner := Predicate.negation_valid.mp valid
    have drawn : (negation p).tree.doc ctx.dialect.toStyle =
      Render.negation ⟨p.tree, p.tree.doc ctx.dialect.toStyle⟩ := (standard _ _).trans (standard _ _)
    rw [drawn]
    refine .lead (marks_not legible) ?_
    unfold wrapsNegated
    cases Predicate.connective? p.tree with
    | some op => exact (ih inner).wrap legible
    | none => exact ih inner
  | connective op lhs rhs left right =>
    obtain ⟨first, second⟩ := Predicate.connective_valid.mp valid
    have drawn : (connective op lhs rhs).tree.doc ctx.dialect.toStyle =
      Render.connective op ⟨lhs.tree, lhs.tree.doc ctx.dialect.toStyle⟩
        ⟨rhs.tree, rhs.tree.doc ctx.dialect.toStyle⟩ := (standard _ _).trans (standard _ _)
    rw [drawn]
    have before := side_shows legible op (left first)
    have after := side_shows legible op (right second)
    exact before.join (by cases op <;> rfl) (marks_connective legible op) after

end Rendering

/-- The text of a condition means what the condition means. In a dialect with the standard renderers every
condition is rendered; if connectives are grouped, reading the text with NOT binding tighter than AND and AND
tighter than OR gives a condition of the same truth value, whatever the columns hold. -/
theorem render_truth {p : Condition} (valid : p.tree.Valid) {dialect : Dialect}
    (standard : dialect.toStyle.StandardRenderers) (legible : dialect.quoter.Legible) {options : RenderOptions}
    (inline : options.mode = .inline) :
    ∃ text, (p.tree.render dialect options).result = .ok ⟨text, []⟩ ∧
      (p.Grouped → ∃ t, vocabulary.read precedence dialect.quoter text = some t ∧
        ∀ {β : Type} [Lattice β] (m : Meaning β), t.value m.reading = p.value m) := by
  have shows : (p.tree.doc dialect.toStyle).Shows vocabulary ⟨dialect, options⟩ p.items :=
    tree_shows standard legible valid
  obtain ⟨text, rendered, read⟩ := Tree.render_shown inline shows
  refine ⟨text, rendered, fun grouped => ?_⟩
  obtain ⟨t, reads, same⟩ := grouped.reads
  exact ⟨t, (read precedence).trans reads.read, same⟩

/-- A column by its bare name. -/
def ofName (name : String) : Condition :=
  .column ⟨none, ⟨name, .none⟩⟩

theorem ofName_valid (name : String) (some : Text.isBlank name = false) : (ofName name).tree.Valid :=
  Predicate.condition_valid.mpr (Expr.column_valid.mpr ⟨nofun, Identifier.valid_of_text some⟩)

theorem embedded_valid {p : Condition} : (embedded p).tree.Valid ↔ p.tree.Valid :=
  Predicate.condition_valid.trans Expr.of_valid

/-- `(a OR b) AND NOT c OR NOT (a AND b)`, with `NOT c` and `b` in expressions. -/
def nested : Condition :=
  .connective .or
    (.connective .and (.connective .or (ofName "a") (ofName "b")) (.embedded (.negation (ofName "c"))))
    (.negation (.connective .and (ofName "a") (.embedded (ofName "b"))))

theorem render_truth_nested :
    nested.tree.Valid ∧ nested.Grouped ∧
      (nested.tree.render .standard .inline).result = .ok ⟨"(a OR b) AND NOT c OR NOT (a AND b)", []⟩ ∧
      ∃ t, vocabulary.read precedence .standard "(a OR b) AND NOT c OR NOT (a AND b)" = some t ∧
        ∀ m : Meaning Bool, t.value m.reading = nested.value m := by
  have a := ofName_valid "a" rfl
  have b := ofName_valid "b" rfl
  have c := ofName_valid "c" rfl
  have first : (connective .or (ofName "a") (ofName "b")).tree.Valid := Predicate.connective_valid.mpr ⟨a, b⟩
  have second : (embedded (negation (ofName "c"))).tree.Valid :=
    embedded_valid.mpr (Predicate.negation_valid.mpr c)
  have third : (negation (connective .and (ofName "a") (embedded (ofName "b")))).tree.Valid :=
    Predicate.negation_valid.mpr (Predicate.connective_valid.mpr ⟨a, embedded_valid.mpr b⟩)
  have valid : nested.tree.Valid :=
    Predicate.connective_valid.mpr ⟨Predicate.connective_valid.mpr ⟨first, second⟩, third⟩
  have grouped : nested.Grouped := by decide
  have rendered : (nested.tree.render .standard .inline).result =
      .ok ⟨"(a OR b) AND NOT c OR NOT (a AND b)", []⟩ := by rfl
  have standard : Dialect.standard.toStyle.StandardRenderers := fun _ _ => rfl
  have inline : RenderOptions.inline.mode = .inline := rfl
  obtain ⟨text, rendered', meant⟩ := render_truth valid standard Quoter.standard_legible inline
  obtain rfl : text = _ := congrArg SqlText.sql (Except.ok.inj (rendered'.symm.trans rendered))
  obtain ⟨t, read, same⟩ := meant grouped
  exact ⟨valid, grouped, rendered, t, read, fun m => same m⟩

/-- `a AND (b OR c)`, with the disjunction in an expression. -/
def hidden : Condition :=
  .connective .and (ofName "a") (.embedded (.connective .or (ofName "b") (ofName "c")))

/-- The parentheses around a disjunction in an expression are left out, and the conjunction takes its first
side only. -/
theorem hidden_loses_grouping :
    hidden.tree.Valid ∧
      (hidden.tree.render .standard .inline).result = .ok ⟨"a AND b OR c", []⟩ ∧
      ∃ (t : Reading ColumnName LogicalSign) (m : Meaning Bool),
        vocabulary.read precedence .standard "a AND b OR c" = some t ∧
          t.value m.reading = true ∧ hidden.value m = false := by
  have inside : (connective .or (ofName "b") (ofName "c")).tree.Valid :=
    Predicate.connective_valid.mpr ⟨ofName_valid _ rfl, ofName_valid _ rfl⟩
  have valid : hidden.tree.Valid :=
    Predicate.connective_valid.mpr ⟨ofName_valid _ rfl, embedded_valid.mpr inside⟩
  let column (name : String) : Reading ColumnName LogicalSign := .operand ⟨none, name⟩
  let m : Meaning Bool := ⟨fun c => c.name = "c", not⟩
  exact ⟨valid, by rfl,
    .join (.connective .or) (.join (.connective .and) (column "a") (column "b")) (column "c"), m,
    by rfl, by rfl, by rfl⟩

end Condition

end SqlTree

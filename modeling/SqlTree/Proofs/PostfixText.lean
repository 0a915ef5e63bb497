import SqlTree.Build.Expression
import SqlTree.Proofs.Drawn
import SqlTree.Proofs.LexedText

/-!
Texts of COLLATE and AT TIME ZONE. Both stand behind their operand, and neither puts an operand in parentheses.
So operators inside a time zone look like operators behind the whole: two expressions have the same text
exactly when they have the same operators in the same order, wherever they are nested.
-/
namespace SqlTree

/-- An identifier with quotes recorded exactly if it is written with quotes. -/
def Identifier.written (i : Identifier) : Identifier :=
  ⟨i.value, if i.style ≠ .none || needsQuoting i.value then .doubleQuote else .none⟩

/-- An identifier without recorded quotes. -/
def Identifier.unstyled (i : Identifier) : Identifier :=
  ⟨i.value, .none⟩

def ColumnRef.map (f : Identifier → Identifier) (c : ColumnRef) : ColumnRef :=
  ⟨c.qualifier.map f, f c.name⟩

def QualifiedName.map (f : Identifier → Identifier) (n : QualifiedName) : QualifiedName :=
  ⟨n.parts.map f⟩

/-- Expressions made of columns, collations and time zones. -/
inductive Postfix where
  | column (c : ColumnRef)
  | collate (e : Postfix) (collation : QualifiedName)
  | atTimeZone (e zone : Postfix)
  deriving DecidableEq

namespace Postfix

/-- An operator with the name behind it. -/
inductive Step where
  | collate (collation : QualifiedName)
  | atTimeZone (zone : ColumnRef)

def tree : Postfix → Expr
  | .column c => .column c
  | .collate e collation => .collate e.tree collation
  | .atTimeZone e zone => .atTimeZone e.tree zone.tree

/-- Changes all identifiers. -/
def map (f : Identifier → Identifier) : Postfix → Postfix
  | .column c => .column (c.map f)
  | .collate e collation => .collate (e.map f) (collation.map f)
  | .atTimeZone e zone => .atTimeZone (e.map f) (zone.map f)

def Step.map (f : Identifier → Identifier) : Step → Step
  | .collate collation => .collate (collation.map f)
  | .atTimeZone zone => .atTimeZone (zone.map f)

def apply (e : Postfix) : Step → Postfix
  | .collate collation => .collate e collation
  | .atTimeZone zone => .atTimeZone e (.column zone)

/-- The column that the text begins with. -/
def head : Postfix → ColumnRef
  | .column c => c
  | .collate e _ => e.head
  | .atTimeZone e _ => e.head

/-- The operators behind the first column in written order. -/
def steps : Postfix → List Step
  | .column _ => []
  | .collate e collation => e.steps ++ [.collate collation]
  | .atTimeZone e zone => e.steps ++ .atTimeZone zone.head :: zone.steps

/-- The same operators, each applied to all that stands before it. -/
def leftmost (e : Postfix) : Postfix :=
  e.steps.foldl apply (.column e.head)

/-- Every time zone is a column. -/
def Grouped : Postfix → Prop
  | .column _ => True
  | .collate e _ => e.Grouped
  | .atTimeZone e zone => e.Grouped ∧ ∃ c, zone = .column c

theorem leftmost_collate (e : Postfix) (collation : QualifiedName) :
    (collate e collation).leftmost = collate e.leftmost collation := by
  simp only [leftmost, head, steps, List.foldl_append, List.foldl_cons, List.foldl_nil, apply]

theorem leftmost_atTimeZone (e zone : Postfix) :
    (atTimeZone e zone).leftmost = (Step.atTimeZone zone.head :: zone.steps).foldl apply e.leftmost := by
  simp only [leftmost, head, steps, List.foldl_append]

theorem Grouped.leftmost_eq {e : Postfix} (grouped : e.Grouped) : e.leftmost = e := by
  induction e with
  | column c => rfl
  | collate e collation ih => rw [leftmost_collate, ih grouped]
  | atTimeZone e zone ih _ =>
    obtain ⟨inner, c, rfl⟩ := grouped
    rw [leftmost_atTimeZone, ih inner]
    rfl

section Names

variable (f : Identifier → Identifier)

theorem head_map (e : Postfix) : (e.map f).head = e.head.map f := by
  induction e with
  | column c => rfl
  | collate e collation ih => exact ih
  | atTimeZone e zone ih _ => exact ih

theorem steps_map (e : Postfix) : (e.map f).steps = e.steps.map (Step.map f) := by
  induction e with
  | column c => rfl
  | collate e collation ih => simp [map, steps, ih, Step.map]
  | atTimeZone e zone ih ih' => simp [map, steps, ih, ih', head_map, Step.map]

theorem map_apply (e : Postfix) (s : Step) : (e.map f).apply (s.map f) = (e.apply s).map f := by
  cases s <;> rfl

theorem leftmost_map (e : Postfix) : (e.map f).leftmost = e.leftmost.map f := by
  rw [leftmost, leftmost, head_map, steps_map, List.foldl_map]
  change e.steps.foldl (fun e s => e.apply (s.map f)) (map f (.column e.head)) = _
  exact List.foldl_hom (map f) (map_apply f)

end Names

/-- Recorded quotes play no part once they are left out. -/
theorem unstyled_written (e : Postfix) : (e.map .written).map .unstyled = e.map .unstyled := by
  have names : Identifier.unstyled ∘ Identifier.written = Identifier.unstyled := rfl
  induction e with
  | column c => simp [map, ColumnRef.map, names]; rfl
  | collate e collation ih => simp [map, QualifiedName.map, names, ih]
  | atTimeZone e zone ih ih' => simp [map, ih, ih']

section Text

variable (q : Quoter)

def text : Postfix → String
  | .column c => Vocabulary.columnText q c
  | .collate e collation => e.text ++ " COLLATE " ++ q.qualify collation.parts
  | .atTimeZone e zone => e.text ++ " AT TIME ZONE " ++ zone.text

/-- What stands behind a time zone looks the same outside of it. -/
theorem text_behind (e zone : Postfix) :
    ((Step.atTimeZone zone.head :: zone.steps).foldl apply e).text q =
      e.text q ++ " AT TIME ZONE " ++ zone.text q := by
  induction zone generalizing e with
  | column c => rfl
  | collate zone collation ih =>
    rw [steps, ← List.cons_append, List.foldl_append]
    simp only [List.foldl_cons, List.foldl_nil] at ih ⊢
    rw [apply, text, head, ih, text]
    simp only [String.append_assoc]
  | atTimeZone zone other ih ih' =>
    rw [steps, ← List.cons_append, List.foldl_append, ih', head, ih, text]
    simp only [String.append_assoc]

theorem text_leftmost (e : Postfix) : e.leftmost.text q = e.text q := by
  induction e with
  | column c => rfl
  | collate e collation ih => rw [leftmost_collate, text, text, ih]
  | atTimeZone e zone ih _ => rw [leftmost_atTimeZone, text_behind, ih, text]

theorem text_written (e : Postfix) : (e.map .written).text q = e.text q := by
  have name : ∀ i : Identifier, q.quoteIfNeeded i.written = q.quoteIfNeeded i := by
    intro i
    unfold Quoter.quoteIfNeeded Identifier.written
    split <;> simp_all
  have column : ∀ c : ColumnRef, Vocabulary.columnText q (c.map .written) = Vocabulary.columnText q c := by
    rintro ⟨_ | table, own⟩ <;> simp [Vocabulary.columnText, ColumnRef.map, name]
  induction e with
  | column c => exact column c
  | collate e collation ih => simp [map, text, ih, QualifiedName.map, Quoter.qualify, Function.comp_def, name]
  | atTimeZone e zone ih ih' => rw [map, text, text, ih, ih']

end Text

section Lexemes

namespace Step

def keyword : Step → List Lexeme
  | .collate _ => [.symbol ' ', .word "COLLATE", .symbol ' ']
  | .atTimeZone _ =>
    [.symbol ' ', .word "AT", .symbol ' ', .word "TIME", .symbol ' ', .word "ZONE", .symbol ' ']

def parts : Step → List Identifier
  | .collate collation => collation.parts
  | .atTimeZone zone => zone.parts

def lexemes (s : Step) : List Lexeme :=
  s.keyword ++ Identifier.dotted s.parts

end Step

def lexemes (e : Postfix) : List Lexeme :=
  Identifier.dotted e.head.parts ++ e.steps.flatMap Step.lexemes

theorem parts_ne_nil {e : Postfix} (valid : e.tree.Valid) : ∀ s ∈ e.steps, s.parts ≠ [] := by
  have column : ∀ c : ColumnRef, c.parts ≠ [] := fun c => by simp [ColumnRef.parts]
  induction e with
  | column c => nofun
  | collate e collation ih =>
    obtain ⟨named, inner⟩ := Expr.collate_valid.mp valid
    intro s member
    rcases List.mem_append.mp member with before | last
    · exact ih inner s before
    · rw [List.mem_singleton.mp last]
      exact named.1
  | atTimeZone e zone ih ih' =>
    obtain ⟨inner, other⟩ := Expr.atTimeZone_valid.mp valid
    intro s member
    rcases List.mem_append.mp member with before | after
    · exact ih inner s before
    · rcases List.mem_cons.mp after with rfl | behind
      · exact column zone.head
      · exact ih' other s behind

variable {q : Quoter} (legible : q.Legible)

include legible in
theorem cuts_text {e : Postfix} (valid : e.tree.Valid) : q.Cuts (e.text q) e.lexemes := by
  have space : ∀ {s : String}, s.toList.head? = some ' ' → q.Breaks s := fun first =>
    legible.breaks ⟨' ', first, by decide⟩
  induction e with
  | column c =>
    rw [lexemes, steps, List.flatMap_nil, List.append_nil]
    exact legible.cuts_column (ColumnRef.parts_valid valid)
  | collate e collation ih =>
    obtain ⟨named, inner⟩ := Expr.collate_valid.mp valid
    have mark : q.Closes " COLLATE " (Step.collate collation).keyword :=
      legible.closes_plain " COLLATE " (by decide) ⟨' ', rfl, by decide⟩
    have whole := ((ih inner).closes (space rfl) mark).before (legible.cuts_dotted named.2)
    simpa [lexemes, steps, head, Step.lexemes, Step.parts, text] using whole
  | atTimeZone e zone ih ih' =>
    obtain ⟨inner, other⟩ := Expr.atTimeZone_valid.mp valid
    have mark : q.Closes " AT TIME ZONE " (Step.atTimeZone zone.head).keyword :=
      legible.closes_plain " AT TIME ZONE " (by decide) ⟨' ', rfl, by decide⟩
    have whole := ((ih inner).closes (space rfl) mark).before (ih' other)
    simpa [lexemes, steps, head, Step.lexemes, Step.parts, text] using whole

end Lexemes

/-- Lexemes tell identifiers apart up to quotes that are recorded and not needed. -/
theorem written_of_lexeme {i j : Identifier} (same : i.lexeme = j.lexeme) : i.written = j.written := by
  unfold Identifier.lexeme at same
  unfold Identifier.written
  split at same <;> split at same
  · rename_i first second
    rw [if_pos first, if_pos second, Lexeme.quoted.inj same]
  · cases same
  · cases same
  · rename_i first second
    rw [if_neg first, if_neg second, Lexeme.word.inj same]

/-- Dotted names are told apart by their lexemes when no dot follows them. -/
theorem written_of_dotted {x y : List Identifier} (named : x ≠ []) (named' : y ≠ []) {l m : List Lexeme}
    (stops : l.head? ≠ some (.symbol '.')) (stops' : m.head? ≠ some (.symbol '.'))
    (same : Identifier.dotted x ++ l = Identifier.dotted y ++ m) :
    x.map Identifier.written = y.map Identifier.written ∧ l = m := by
  induction x generalizing y with
  | nil => exact absurd rfl named
  | cons i x ih =>
    cases y with
    | nil => exact absurd rfl named'
    | cons j y =>
      cases x with
      | nil =>
        cases y with
        | nil =>
          obtain ⟨first, rest⟩ := List.cons.inj same
          exact ⟨congrArg (fun i => [i]) (written_of_lexeme first), rest⟩
        | cons k y =>
          obtain ⟨_, rfl⟩ := List.cons.inj same
          exact absurd rfl stops
      | cons k x =>
        cases y with
        | nil =>
          obtain ⟨_, rfl⟩ := List.cons.inj same
          exact absurd rfl stops'
        | cons n y =>
          obtain ⟨first, rest⟩ := List.cons.inj same
          obtain ⟨others, behind⟩ := ih (List.cons_ne_nil k x) (List.cons_ne_nil n y) (List.cons.inj rest).2
          exact ⟨congrArg₂ List.cons (written_of_lexeme first) others, behind⟩

theorem written_of_parts {c d : ColumnRef}
    (same : c.parts.map Identifier.written = d.parts.map Identifier.written) :
    c.map .written = d.map .written := by
  obtain ⟨_ | table, own⟩ := c <;> obtain ⟨_ | table', own'⟩ := d <;>
    simp_all [ColumnRef.parts, ColumnRef.map]

theorem stops_steps (l : List Step) : (l.flatMap Step.lexemes).head? ≠ some (.symbol '.') := by
  cases l with
  | nil => simp
  | cons s l => cases s <;> simp [Step.lexemes, Step.keyword]

/-- Operators one behind the other are told apart by their lexemes. -/
theorem written_of_steps {l m : List Step} (named : ∀ s ∈ l, s.parts ≠ []) (named' : ∀ s ∈ m, s.parts ≠ [])
    (same : l.flatMap Step.lexemes = m.flatMap Step.lexemes) :
    l.map (Step.map .written) = m.map (Step.map .written) := by
  induction l generalizing m with
  | nil =>
    cases m with
    | nil => rfl
    | cons t m => cases t <;> cases same
  | cons s l ih =>
    cases m with
    | nil => cases s <;> cases same
    | cons t m =>
      have names : Identifier.dotted s.parts ++ l.flatMap Step.lexemes =
          Identifier.dotted t.parts ++ m.flatMap Step.lexemes →
          s.parts.map Identifier.written = t.parts.map Identifier.written ∧
            l.map (Step.map .written) = m.map (Step.map .written) := fun behind => by
        obtain ⟨first, rest⟩ := written_of_dotted (named s (List.mem_cons_self ..))
          (named' t (List.mem_cons_self ..)) (stops_steps l) (stops_steps m) behind
        exact ⟨first, ih (fun s member => named s (List.mem_cons_of_mem _ member))
          (fun t member => named' t (List.mem_cons_of_mem _ member)) rest⟩
      simp only [List.flatMap_cons, Step.lexemes, List.append_assoc] at same
      cases s with
      | collate collation =>
        cases t with
        | collate collation' =>
          obtain ⟨first, rest⟩ := names (List.append_cancel_left same)
          exact congrArg₂ List.cons (congrArg (fun parts => Step.collate ⟨parts⟩) first) rest
        | atTimeZone zone => simp [Step.keyword] at same
      | atTimeZone zone =>
        cases t with
        | collate collation => simp [Step.keyword] at same
        | atTimeZone zone' =>
          obtain ⟨first, rest⟩ := names (List.append_cancel_left same)
          exact congrArg₂ List.cons (congrArg Step.atTimeZone (written_of_parts first)) rest

/-- Equal texts have the same operators. -/
theorem written_of_text {q : Quoter} (legible : q.Legible) {e f : Postfix} (valid : e.tree.Valid)
    (valid' : f.tree.Valid) (same : e.text q = f.text q) : e.leftmost.map .written = f.leftmost.map .written := by
  have lexemes : e.lexemes = f.lexemes := by
    rw [← (cuts_text legible valid).lexemes, same, (cuts_text legible valid').lexemes]
  have named : ∀ c : ColumnRef, c.parts ≠ [] := fun c => by simp [ColumnRef.parts]
  obtain ⟨first, rest⟩ := written_of_dotted (named e.head) (named f.head) (stops_steps _) (stops_steps _) lexemes
  have steps := written_of_steps (parts_ne_nil valid) (parts_ne_nil valid') rest
  rw [← leftmost_map, ← leftmost_map, leftmost, leftmost, head_map, head_map, steps_map, steps_map,
    written_of_parts first, steps]

section Rendering

variable {ctx : Context} (standard : ctx.dialect.toStyle.StandardRenderers)
  (supported : ctx.dialect.capabilities.supports Construct.atTimeZone.feature = true)

theorem binding_tree (e : Postfix) : Expr.binding? e.tree = none := by
  cases e <;> rfl

theorem tight_tree (e : Postfix) (d : Doc) : Render.tight ⟨e.tree, d⟩ = d := by
  rw [Render.tight, Render.operand, binding_tree]

include standard supported in
theorem tree_adds (e : Postfix) : (e.tree.doc ctx.dialect.toStyle).Adds ctx (e.text ctx.dialect.quoter) := by
  induction e with
  | column c =>
    rw [tree, Expr.doc_column standard]
    exact .columnDoc c
  | collate e collation ih =>
    have drawn : (collate e collation).tree.doc ctx.dialect.toStyle =
      Render.collate ctx.dialect.toStyle collation ⟨e.tree, e.tree.doc ctx.dialect.toStyle⟩ :=
      (standard _ _).trans (standard _ _)
    rw [drawn, Render.collate, tight_tree]
    exact (ih.append .text).append .text
  | atTimeZone e zone ih ih' =>
    have drawn : (atTimeZone e zone).tree.doc ctx.dialect.toStyle =
      Render.atTimeZone ⟨e.tree, e.tree.doc ctx.dialect.toStyle⟩ ⟨zone.tree, zone.tree.doc ctx.dialect.toStyle⟩ :=
      (standard _ _).trans (standard _ _)
    rw [drawn, Render.atTimeZone, tight_tree, tight_tree]
    exact (((Doc.Adds.require supported).behind ih).append .text).append ih'

end Rendering

/-- Two expressions have the same text exactly when they begin with the same column and go on with the same
operators, up to recorded quotes that change nothing. If no time zone has operators of its own, they are then the
same expression. -/
theorem render_eq_iff {e f : Postfix} (valid : e.tree.Valid) (valid' : f.tree.Valid) {dialect : Dialect}
    (standard : dialect.toStyle.StandardRenderers) (legible : dialect.quoter.Legible)
    (supported : dialect.capabilities.supports Construct.atTimeZone.feature = true) {options : RenderOptions}
    (inline : options.mode = .inline) :
    ∃ s t, (e.tree.render dialect options).result = .ok ⟨s, []⟩ ∧
      (f.tree.render dialect options).result = .ok ⟨t, []⟩ ∧
      (s = t ↔ e.leftmost.map .written = f.leftmost.map .written) ∧
      (e.Grouped → f.Grouped → s = t → e.map .unstyled = f.map .unstyled) := by
  have rendered (e : Postfix) : (e.tree.render dialect options).result = .ok ⟨e.text dialect.quoter, []⟩ := by
    have adds : (e.tree.doc dialect.toStyle).Adds ⟨dialect, options⟩ (e.text dialect.quoter) :=
      tree_adds standard supported e
    exact Tree.render_adds inline adds
  have iff : e.text dialect.quoter = f.text dialect.quoter ↔ e.leftmost.map .written = f.leftmost.map .written := by
    refine ⟨written_of_text legible valid valid', fun same => ?_⟩
    rw [← text_leftmost, ← text_written, same, text_written, text_leftmost]
  refine ⟨_, _, rendered e, rendered f, iff, fun grouped grouped' same => ?_⟩
  have written := iff.mp same
  rw [grouped.leftmost_eq, grouped'.leftmost_eq] at written
  rw [← unstyled_written, written, unstyled_written]

/-- `"order" COLLATE C AT TIME ZONE z`, with given quotes recorded on the reserved word. -/
def zoned (style : QuoteStyle) : Postfix :=
  .atTimeZone (.collate (.column ⟨none, ⟨"order", style⟩⟩) ⟨[⟨"C", .none⟩]⟩) (.column (.ofName "z"))

/-- A reserved word is written with the same quotes whatever quotes are recorded. -/
theorem render_eq_iff_zoned :
    (zoned .none).tree.Valid ∧ (zoned .brackets).tree.Valid ∧
      ((zoned .none).tree.render .standard .inline).result = .ok ⟨"\"order\" COLLATE C AT TIME ZONE z", []⟩ ∧
      ((zoned .brackets).tree.render .standard .inline).result = .ok ⟨"\"order\" COLLATE C AT TIME ZONE z", []⟩ ∧
      (zoned .none).map .unstyled = (zoned .brackets).map .unstyled := by
  have valid (style : QuoteStyle) : (zoned style).tree.Valid := by
    have solid : Text.isBlank "order" = false := rfl
    have order : (Postfix.column ⟨none, ⟨"order", style⟩⟩).tree.Valid :=
      Expr.column_valid.mpr ⟨nofun, Identifier.valid_of_text solid⟩
    have named : (QualifiedName.mk [⟨"C", .none⟩]).Valid := ⟨nofun, by rintro _ (_ | ⟨_, ⟨⟩⟩); rfl⟩
    exact Expr.atTimeZone_valid.mpr ⟨Expr.collate_valid.mpr ⟨named, order⟩, ColumnRef.ofName_valid "z" rfl⟩
  have grouped (style : QuoteStyle) : (zoned style).Grouped := ⟨trivial, _, rfl⟩
  have standard : Dialect.standard.toStyle.StandardRenderers := fun _ _ => rfl
  have inline : RenderOptions.inline.mode = .inline := rfl
  have rendered : ((zoned .none).tree.render .standard .inline).result =
      .ok ⟨"\"order\" COLLATE C AT TIME ZONE z", []⟩ := by rfl
  have rendered' : ((zoned .brackets).tree.render .standard .inline).result =
      .ok ⟨"\"order\" COLLATE C AT TIME ZONE z", []⟩ := by rfl
  obtain ⟨s, t, first, second, _, same⟩ := render_eq_iff (valid .none) (valid .brackets) standard
    Quoter.standard_legible (by decide) inline
  have texts : s = t := by
    rw [rendered] at first
    rw [rendered'] at second
    exact (congrArg SqlText.sql (Except.ok.inj first)).symm.trans (congrArg SqlText.sql (Except.ok.inj second))
  exact ⟨valid .none, valid .brackets, rendered, rendered', same (grouped .none) (grouped .brackets) texts⟩

/-- `a` in the time zone `b` in the time zone `c`, and `a` in the time zone that is `b` in the time zone `c`. -/
theorem nested_zone_looks_outer :
    let column (name : String) : Postfix := .column (.ofName name)
    let outer : Postfix := .atTimeZone (.atTimeZone (column "a") (column "b")) (column "c")
    let nested : Postfix := .atTimeZone (column "a") (.atTimeZone (column "b") (column "c"))
    outer.tree.Valid ∧ nested.tree.Valid ∧
      (outer.tree.render .standard .inline).result = .ok ⟨"a AT TIME ZONE b AT TIME ZONE c", []⟩ ∧
      (nested.tree.render .standard .inline).result = .ok ⟨"a AT TIME ZONE b AT TIME ZONE c", []⟩ ∧
      outer.map .unstyled ≠ nested.map .unstyled := by
  intro column outer nested
  have a := ColumnRef.ofName_valid "a" rfl
  have b := ColumnRef.ofName_valid "b" rfl
  have c := ColumnRef.ofName_valid "c" rfl
  have atOuter : outer.tree.Valid := Expr.atTimeZone_valid.mpr ⟨Expr.atTimeZone_valid.mpr ⟨a, b⟩, c⟩
  have atNested : nested.tree.Valid := Expr.atTimeZone_valid.mpr ⟨a, Expr.atTimeZone_valid.mpr ⟨b, c⟩⟩
  exact ⟨atOuter, atNested, by rfl, by rfl, by decide⟩

end Postfix

end SqlTree

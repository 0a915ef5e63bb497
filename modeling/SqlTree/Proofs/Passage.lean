import SqlTree.Proofs.AppendOnly
import SqlTree.Proofs.Congruence
import SqlTree.Tree.Node

/-!
Texts with the places of queries in them. A passage tells which parts of a text stand in parentheses and
which parts are set operations and WITH queries; it is delimited when each of these has a pair of
parentheses of its own. A document is marked when the text it is written with is such a passage, and a
second document is written with the same passage and a mark before and behind each query.
-/
namespace SqlTree

inductive Passage where
  | text (s : String)
  | append (first second : Passage)
  | parens (inner : Passage)
  | query (kind : QueryVariant) (inner : Passage)

namespace Passage

/-- The text of a passage with marks around the queries in it. -/
def shown (before after : QueryVariant → String) : Passage → String
  | .text s => s
  | .append first second => first.shown before after ++ second.shown before after
  | .parens inner => "(" ++ inner.shown before after ++ ")"
  | .query kind inner => before kind ++ inner.shown before after ++ after kind

/-- The text of a passage. -/
def plain : Passage → String :=
  shown (fun _ => "") fun _ => ""

mutual

/-- Every query has a pair of parentheses of its own. -/
inductive Delimited : Passage → Prop
  | text (s : String) : Delimited (.text s)
  | append {first second : Passage} (left : Delimited first) (right : Delimited second) :
      Delimited (.append first second)
  | parens {inner : Passage} (whole : Whole inner) : Delimited (.parens inner)

/-- What can stand alone: a delimited passage, a set operation, or a WITH query, whose body follows bare
behind what is delimited. -/
inductive Whole : Passage → Prop
  | plain {p : Passage} (delimited : Delimited p) : Whole p
  | composite {p : Passage} (delimited : Delimited p) : Whole (.query .composite p)
  | withQuery {front body : Passage} (delimited : Delimited front) (whole : Whole body) :
      Whole (.query .withQuery (.append front body))

end

variable {before after : QueryVariant → String} {p : Passage}

/-- A delimited passage begins in the same way with and without marks: what stands before the first
parenthesis is without queries. -/
theorem Delimited.begins (delimited : p.Delimited) :
    (p.shown before after = "" ↔ p.plain = "") ∧
      Text.startsMinus (p.shown before after) = Text.startsMinus p.plain := by
  induction p with
  | text s => exact ⟨Iff.rfl, rfl⟩
  | append first second left right =>
    cases delimited with
    | append atFirst atSecond =>
      obtain ⟨none, minus⟩ := left atFirst
      obtain ⟨none', minus'⟩ := right atSecond
      change (first.shown _ _ ++ second.shown _ _ = "" ↔ first.plain ++ second.plain = "") ∧
        Text.startsMinus (first.shown _ _ ++ second.shown _ _) = Text.startsMinus (first.plain ++ second.plain)
      refine ⟨by simp only [String.append_eq_empty_iff, none, none'], ?_⟩
      -- the second part begins the text only where the first one is empty, with and without marks
      by_cases empty : first.plain = ""
      · rw [none.mpr empty, empty, String.empty_append, String.empty_append, minus']
      · rw [Text.startsMinus_append _ empty, Text.startsMinus_append _ (mt none.mp empty), minus]
  | parens inner ih =>
    have opened : ∀ s : String, "(" ++ s ++ ")" ≠ "" ∧ Text.startsMinus ("(" ++ s ++ ")") = false := by
      intro s
      simp [Text.startsMinus]
    have left := opened (inner.shown before after)
    have right := opened inner.plain
    exact ⟨iff_of_false left.1 right.1, left.2.trans right.2.symm⟩
  | query kind inner ih => cases delimited

end Passage

section Marked

variable (ctx : Context) (before after : QueryVariant → String)

/-- The first document is written with a passage in compact layout, and the second one with the same
passage and marks. -/
structure Doc.Marked (P : Passage → Prop) (d e : Doc) : Prop where
  reads : ∀ {w v : Writer}, w.pretty = false → d.Writes ctx w v → ∃ p, P p ∧ v.text = w.text ++ p.plain ∧
    ∀ start past, ∃ log, e.Writes ctx (w.behind start past) (v.behind (start ++ p.shown before after) log)

variable {ctx before after}

namespace Doc.Marked

variable {P Q S : Passage → Prop} {a b c d : Doc}

theorem mono (marked : Doc.Marked ctx before after P a b) (each : ∀ {p}, P p → Q p) :
    Doc.Marked ctx before after Q a b := by
  refine ⟨fun {w v} compact writes => ?_⟩
  obtain ⟨p, holds, rest⟩ := marked.reads compact writes
  exact ⟨p, each holds, rest⟩

theorem refl (d : Doc) : Doc.Marked ctx before after Passage.Delimited d d := by
  refine ⟨fun {w v} compact writes => ?_⟩
  obtain ⟨s, events, appended⟩ := writes.appended
  exact ⟨.text s, .text s, appended.text, fun start past => ⟨_, appended.anywhere start past⟩⟩

theorem append (joins : ∀ {p q}, P p → Q q → S (.append p q)) (first : Doc.Marked ctx before after P a b)
    (second : Doc.Marked ctx before after Q c d) : Doc.Marked ctx before after S (a ++ c) (b ++ d) := by
  refine ⟨fun {w v} compact writes => ?_⟩
  obtain ⟨u, atFirst, atSecond⟩ := Doc.Writes.append_iff.mp writes
  have compact' : u.pretty = false := by
    obtain ⟨_, _, appended⟩ := atFirst.appended
    exact (congrArg Layout.pretty appended.layout).trans compact
  obtain ⟨p, holds, text, left⟩ := first.reads compact atFirst
  obtain ⟨q, holds', text', right⟩ := second.reads compact' atSecond
  refine ⟨.append p q, joins holds holds', ?_, fun start past => ?_⟩
  · rw [text', text, String.append_assoc]
    rfl
  · obtain ⟨log, writes⟩ := left start past
    obtain ⟨log', writes'⟩ := right (start ++ p.shown before after) log
    rw [String.append_assoc] at writes'
    exact ⟨log', Doc.Writes.append_iff.mpr ⟨_, writes, writes'⟩⟩

theorem block (wraps : ∀ {p}, P p → S (.parens p)) (body : Doc.Marked ctx before after P a b) :
    Doc.Marked ctx before after S (.block a) (.block b) := by
  refine ⟨fun {w v} compact writes => ?_⟩
  obtain ⟨u, inside, rfl⟩ := Doc.Writes.block_iff.mp writes
  have opened : ∀ {w : Writer}, w.pretty = false → w.openBlock = w.write "(" := by
    intro w compact
    simp [Writer.openBlock, compact]
  have closed : ∀ {w : Writer}, w.closeBlock false = w.write ")" := rfl
  rw [opened compact] at inside
  obtain ⟨p, holds, text, within⟩ := body.reads (w := w.write "(") compact inside
  rw [compact, closed]
  refine ⟨.parens p, wraps holds, ?_, fun start past => ?_⟩
  · change u.text ++ ")" = w.text ++ ("(" ++ p.plain ++ ")")
    rw [text]
    simp only [Writer.write, String.append_assoc]
  · obtain ⟨log, writes⟩ := within (start ++ "(") past
    have same : (w.behind start past).pretty = false := compact
    refine ⟨log, Doc.Writes.block_iff.mpr ⟨u.behind (start ++ "(" ++ p.shown before after) log, ?_, ?_⟩⟩
    · rw [opened same]
      exact writes
    · rw [same, closed, Writer.behind_write]
      simp only [Passage.shown, String.append_assoc]

/-- A text that is marked is in parentheses in both readings or in neither. -/
theorem afterMinus (body : Doc.Marked ctx before after Passage.Delimited a b) :
    Doc.Marked ctx before after Passage.Delimited (.afterMinus a) (.afterMinus b) := by
  refine ⟨fun {w v} compact writes => ?_⟩
  obtain ⟨u, inside, rfl⟩ := Doc.Writes.afterMinus_iff.mp writes
  obtain ⟨p, delimited, text, within⟩ := body.reads (w := { w with text := "" }) compact inside
  have alone : u.text = p.plain := text.trans String.empty_append
  have again : ∀ start past, ∃ log, (Doc.afterMinus b).Writes ctx (w.behind start past)
      (u.behind (start ++ Doc.guardMinus (p.shown before after)) log) := by
    intro start past
    obtain ⟨log, writes⟩ := within "" past
    rw [String.empty_append] at writes
    exact ⟨log, Doc.Writes.afterMinus_iff.mpr ⟨_, writes, rfl⟩⟩
  -- the two readings agree on whether the text begins with a minus sign
  have guarded := Text.guardMinus_eq (p.shown before after)
  rw [delimited.begins.2] at guarded
  rw [alone, Text.guardMinus_eq]
  by_cases minus : Text.startsMinus p.plain = true
  · rw [if_pos minus] at guarded ⊢
    rw [guarded] at again
    exact ⟨.parens p, .parens (.plain delimited), rfl, again⟩
  · rw [if_neg minus] at guarded ⊢
    rw [guarded] at again
    exact ⟨p, delimited, rfl, again⟩

/-- What is written between two marks in one reading, and without them in the other. -/
theorem query (kind : QueryVariant) (names : ∀ {p}, P p → S (.query kind p))
    (body : Doc.Marked ctx before after P a b) :
    Doc.Marked ctx before after S a (Doc.text (before kind) ++ b ++ Doc.text (after kind)) := by
  refine ⟨fun {w v} compact writes => ?_⟩
  obtain ⟨p, holds, text, within⟩ := body.reads compact writes
  refine ⟨.query kind p, names holds, ?_, fun start past => ?_⟩
  · rw [text]
    simp [Passage.plain, Passage.shown]
  · obtain ⟨log, writes⟩ := within (start ++ before kind) past
    have opens : (Doc.text (before kind)).Writes ctx (w.behind start past)
        (w.behind (start ++ before kind) past) := Doc.Writes.text_iff.mpr rfl
    refine ⟨log, Doc.Writes.append_iff.mpr ⟨_, Doc.Writes.append_iff.mpr ⟨_, opens, writes⟩, ?_⟩⟩
    refine Doc.Writes.text_iff.mpr ?_
    rw [Writer.behind_write]
    simp only [Passage.shown, String.append_assoc]
    rfl

end Doc.Marked

/-- Documents that are written with delimited passages go together to others. -/
theorem Doc.Marked.congruence : Doc.Congruence (Doc.Marked ctx before after Passage.Delimited) where
  refl := .refl
  append := .append .append
  block := .block fun delimited => .parens (.plain delimited)
  afterMinus := .afterMinus

end Marked

end SqlTree

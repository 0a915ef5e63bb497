import SqlTree.Proofs.Scan
import SqlTree.Proofs.Writing

/-!
What writing a document does to a scan, as rules: a document leads from scans with one property to scans
with another. A document is sound when it may stand wherever nothing stands right before it, and leaves
the scan outside quoted tokens with the same brackets open.
-/
namespace SqlTree

namespace Scan

/-- Nothing stands right before, with given brackets open. -/
def Clear (opened : List Bracket) (s : Scan) : Prop :=
  s = ⟨.clear, opened⟩

/-- Right behind a minus sign. -/
def Dash (opened : List Bracket) (s : Scan) : Prop :=
  s = ⟨.dash, opened⟩

/-- Outside quoted tokens, whatever stands right before. -/
def Loose (opened : List Bracket) (s : Scan) : Prop :=
  s.place.isOutside = true ∧ s.opened = opened

theorem Clear.loose {opened : List Bracket} {s : Scan} (clear : s.Clear opened) : s.Loose opened := by
  subst clear
  exact ⟨rfl, rfl⟩

theorem Dash.loose {opened : List Bracket} {s : Scan} (dash : s.Dash opened) : s.Loose opened := by
  subst dash
  exact ⟨rfl, rfl⟩

end Scan

open Scan

/-- A text leads from scans with one property to scans with another. -/
def Text.Leads (text : String) (P Q : Scan → Prop) : Prop :=
  ∀ s, P s → ∃ t, s.run text.toList = some t ∧ Q t

/-- A text that may be written where nothing stands before it, for the brackets it closes and opens. -/
def Text.turns (text : String) (before after : List Bracket) : Bool :=
  Scan.run ⟨.clear, before⟩ text.toList = some ⟨.clear, after⟩

/-- A text that may follow anything and that anything may follow. -/
def Text.isBreak (text : String) : Bool :=
  isSoft text && turns text [] []

namespace Text.Leads

variable {P Q R : Scan → Prop} {first second text : String} {opened : List Bracket}

theorem append (left : Text.Leads first P Q) (right : Text.Leads second Q R) :
    Text.Leads (first ++ second) P R := by
  intro s start
  obtain ⟨t, ran, middle⟩ := left s start
  obtain ⟨u, ran', final⟩ := right t middle
  rw [String.toList_append]
  exact ⟨u, Scan.run_trans ran ran', final⟩

theorem mono {P' Q' : Scan → Prop} (leads : Text.Leads text P Q) (before : ∀ s, P' s → P s)
    (after : ∀ s, Q s → Q' s) : Text.Leads text P' Q' := by
  intro s start
  obtain ⟨t, ran, final⟩ := leads s (before s start)
  exact ⟨t, ran, after t final⟩

theorem loosen (leads : Text.Leads text P (Clear opened)) : Text.Leads text P (Loose opened) :=
  leads.mono (fun _ h => h) fun _ h => h.loose

theorem empty : Text.Leads "" P P :=
  fun s start => ⟨s, rfl, start⟩

theorem turns {before after : List Bracket} (turned : Text.turns text before after = true)
    (opened : List Bracket) : Text.Leads text (Clear (before ++ opened)) (Clear (after ++ opened)) := by
  rintro s rfl
  have ran : Scan.run ⟨.clear, before⟩ text.toList = some ⟨.clear, after⟩ := by
    simpa [Text.turns] using turned
  exact ⟨_, Scan.run_within opened ran, rfl⟩

theorem steady (turned : Text.turns text [] [] = true) : Text.Leads text (Clear opened) (Clear opened) :=
  turns turned opened

theorem opens {bracket : Bracket} (turned : Text.turns text [] [bracket] = true) :
    Text.Leads text (Clear opened) (Clear (bracket :: opened)) :=
  turns turned opened

theorem plain (all : Text.isPlain text = true) : Text.Leads text (Clear opened) (Clear opened) := by
  rintro s rfl
  exact ⟨_, Scan.run_plain all opened, rfl⟩

theorem soft (begins : Text.isSoft text = true) (leads : Text.Leads text (Clear opened) Q) :
    Text.Leads text (Loose opened) Q := by
  rintro ⟨place, _⟩ ⟨outer, rfl⟩
  rw [Scan.run_soft begins outer]
  exact leads _ rfl

theorem ofBreak (broken : Text.isBreak text = true) :
    Text.Leads text (Loose opened) (Clear opened) := by
  obtain ⟨begins, turned⟩ : Text.isSoft text = true ∧ Text.turns text [] [] = true := by
    simpa [Text.isBreak] using broken
  exact soft begins (steady turned)

theorem shuts {bracket : Bracket} (begins : Text.isSoft text = true)
    (turned : Text.turns text [bracket] [] = true) :
    Text.Leads text (Loose (bracket :: opened)) (Clear opened) :=
  soft begins (turns turned opened)

/-- A quoted text is one token, whatever stands in it. -/
theorem quoted (q : Quote) (content : String) :
    Text.Leads (Text.quoted q.char q.char content) (Clear opened) (Loose opened) := by
  rintro s rfl
  have enters : Scan.step ⟨.clear, opened⟩ q.char = some ⟨.inside q, opened⟩ := by cases q <;> rfl
  have leaves : Scan.step ⟨.inside q, opened⟩ q.char = some ⟨.after q, opened⟩ := by cases q <;> rfl
  refine ⟨⟨.after q, opened⟩, ?_, rfl, rfl⟩
  rw [Text.quoted, String.toList_ofList, List.cons_append, Scan.run, enters, Option.bind_some,
    Scan.run_append, Scan.run_doubled, Option.bind_some, Scan.run, leaves]
  rfl

/-- What is guarded may follow a minus sign. -/
theorem guardMinus (leads : ∀ o, Text.Leads text (Clear o) (Loose o)) :
    Text.Leads (Doc.guardMinus text) (Dash opened) (Loose opened) := by
  unfold Doc.guardMinus
  split
  · have opening : Text.Leads "(" (Dash opened) (Clear (.round :: opened)) :=
      (soft rfl (opens rfl)).mono (fun _ h => Dash.loose h) fun _ h => h
    have closing : Text.Leads ")" (Loose (.round :: opened)) (Loose opened) := (shuts rfl rfl).loosen
    exact (opening.append (leads _)).append closing
  · rename_i apart
    rintro s rfl
    cases cut : text.toList with
    | nil => exact ⟨_, rfl, rfl, rfl⟩
    | cons c rest =>
      have other : c ≠ '-' := by
        rintro rfl
        exact apart rest cut
      obtain ⟨t, ran, final⟩ := leads opened _ rfl
      rw [cut, Scan.run] at ran
      rw [Scan.run, Scan.step_dash other]
      exact ⟨t, ran, final⟩

end Text.Leads

/-- The text that writing a document adds leads from scans with one property to scans with another. -/
def Doc.Leads (ctx : Context) (d : Doc) (P Q : Scan → Prop) : Prop :=
  ∀ w v, d.Writes ctx w v → ∃ added, v.text = w.text ++ added ∧ Text.Leads added P Q

/-- A document may stand where nothing stands right before it, and leaves the brackets that are open as
they are. -/
def Doc.Sound (ctx : Context) (d : Doc) : Prop :=
  ∀ opened, d.Leads ctx (Clear opened) (Loose opened)

/-- The break between two clauses and the line breaks of a block. -/
theorem Writer.newline_leads (w : Writer) (opened : List Bracket) :
    ∃ added, w.newline.text = w.text ++ added ∧ Text.Leads added (Loose opened) (Clear opened) := by
  have blank : Text.isPlain (String.ofList ('\n' :: List.replicate (2 * w.depth) ' ')) = true := by
    rw [Text.isPlain, String.toList_ofList, List.all_cons, Bool.and_eq_true]
    refine ⟨rfl, List.all_eq_true.mpr fun c member => ?_⟩
    rw [List.eq_of_mem_replicate member]
    rfl
  have begins : Text.isSoft (String.ofList ('\n' :: List.replicate (2 * w.depth) ' ')) = true := by
    simp only [Text.isSoft, String.toList_ofList]
    rfl
  exact ⟨_, rfl, .soft begins (.plain blank)⟩

theorem Writer.separator_leads (w : Writer) (opened : List Bracket) :
    ∃ added, w.separator.text = w.text ++ added ∧ Text.Leads added (Loose opened) (Clear opened) := by
  unfold Writer.separator
  split
  · exact w.newline_leads opened
  · exact ⟨" ", rfl, .ofBreak rfl⟩

theorem Writer.openBlock_leads (w : Writer) (opened : List Bracket) :
    ∃ added, w.openBlock.text = w.text ++ added ∧
      Text.Leads added (Loose opened) (Clear (.round :: opened)) := by
  have opening : Text.Leads "(" (Loose opened) (Clear (.round :: opened)) := .soft rfl (.opens rfl)
  unfold Writer.openBlock
  split
  · obtain ⟨line, added, leads⟩ := (w.write "(").deeper.newline_leads (.round :: opened)
    refine ⟨"(" ++ line, ?_, opening.append (leads.mono (fun _ h => h.loose) fun _ h => h)⟩
    rw [added, ← String.append_assoc]
    rfl
  · exact ⟨"(", rfl, opening⟩

theorem Writer.closeBlock_leads (w : Writer) (pretty : Bool) (opened : List Bracket) :
    ∃ added, (w.closeBlock pretty).text = w.text ++ added ∧
      Text.Leads added (Loose (.round :: opened)) (Clear opened) := by
  have closing : Text.Leads ")" (Loose (.round :: opened)) (Clear opened) := .shuts rfl rfl
  unfold Writer.closeBlock
  split
  · obtain ⟨line, added, leads⟩ := w.shallower.newline_leads (.round :: opened)
    refine ⟨line ++ ")", ?_, (leads.mono (fun _ h => h) fun _ h => h.loose).append closing⟩
    rw [← String.append_assoc]
    exact congrArg (· ++ ")") added
  · exact ⟨")", rfl, closing⟩

namespace Doc.Leads

variable {ctx : Context} {P Q R : Scan → Prop} {a b d : Doc} {opened : List Bracket}

theorem append (first : a.Leads ctx P Q) (second : b.Leads ctx Q R) : (a ++ b).Leads ctx P R := by
  intro w v writes
  obtain ⟨u, atFirst, atSecond⟩ := Doc.Writes.append_iff.mp writes
  obtain ⟨s, grown, leads⟩ := first w u atFirst
  obtain ⟨t, grown', leads'⟩ := second u v atSecond
  refine ⟨s ++ t, ?_, leads.append leads'⟩
  rw [grown', grown, String.append_assoc]

theorem mono {P' Q' : Scan → Prop} (leads : d.Leads ctx P Q) (before : ∀ s, P' s → P s)
    (after : ∀ s, Q s → Q' s) : d.Leads ctx P' Q' := by
  intro w v writes
  obtain ⟨s, grown, leads⟩ := leads w v writes
  exact ⟨s, grown, leads.mono before after⟩

/-- After a document it may be forgotten that nothing stands right before. -/
theorem loosen (leads : d.Leads ctx P (Clear opened)) : d.Leads ctx P (Loose opened) :=
  leads.mono (fun _ h => h) fun _ h => h.loose

/-- What may follow anything may follow nothing. -/
theorem anywhere (leads : d.Leads ctx (Loose opened) Q) : d.Leads ctx (Clear opened) Q :=
  leads.mono (fun _ h => h.loose) fun _ h => h

theorem text {s : String} (leads : Text.Leads s P Q) : (Doc.text s).Leads ctx P Q := by
  intro w v writes
  obtain rfl := Doc.Writes.text_iff.mp writes
  exact ⟨s, rfl, leads⟩

theorem unchanged {d : Doc} (same : ∀ w v, d.Writes ctx w v → v.text = w.text) : d.Leads ctx P P := by
  intro w v writes
  exact ⟨"", by rw [same w v writes, String.append_empty], .empty⟩

theorem empty : Doc.empty.Leads ctx P P :=
  unchanged fun w v writes => by rw [Doc.Writes.empty_iff.mp writes]

theorem note {event : Event} : (Doc.note event).Leads ctx P P :=
  unchanged fun w v writes => by rw [Doc.Writes.note_iff.mp writes]; rfl

theorem require {construct : Construct} : (Doc.require construct).Leads ctx P P :=
  unchanged fun w v writes => by rw [(Doc.Writes.require_iff.mp writes).2]

/-- What comes after a construct that the dialect does not have is never written. -/
theorem withheld {construct : Construct}
    (lacks : ctx.dialect.capabilities.supports construct.feature = false) :
    (Doc.require construct ++ d).Leads ctx P Q := by
  intro w v writes
  obtain ⟨u, atConstruct, _⟩ := Doc.Writes.append_iff.mp writes
  have supported := (Doc.Writes.require_iff.mp atConstruct).1
  rw [lacks] at supported
  cases supported

theorem fail {error : Error} : (Doc.fail error).Leads ctx P Q :=
  fun _ _ writes => absurd writes Doc.Writes.not_fail

theorem gap : Doc.gap.Leads ctx (Loose opened) (Clear opened) := by
  intro w v writes
  obtain rfl := Doc.Writes.gap_iff.mp writes
  exact w.separator_leads opened

theorem block (body : d.Sound ctx) : (Doc.block d).Leads ctx (Loose opened) (Clear opened) := by
  intro w v writes
  obtain ⟨u, atBody, rfl⟩ := Doc.Writes.block_iff.mp writes
  obtain ⟨start, opens, atStart⟩ := w.openBlock_leads opened
  obtain ⟨inner, grown, atInner⟩ := body (.round :: opened) _ _ atBody
  obtain ⟨stop, closes, atStop⟩ := u.closeBlock_leads w.pretty opened
  refine ⟨start ++ inner ++ stop, ?_, (atStart.append atInner).append atStop⟩
  rw [closes, grown, opens]
  simp only [String.append_assoc]

theorem parens (body : d.Sound ctx) : (Doc.parens d).Leads ctx (Loose opened) (Clear opened) :=
  append (append (text (.soft rfl (.opens rfl))) (body (.round :: opened))) (text (.shuts rfl rfl))

/-- After a minus sign a body that begins with one is put in parentheses, so the two do not meet. -/
theorem afterMinus (body : d.Sound ctx) : (Doc.afterMinus d).Leads ctx (Dash opened) (Loose opened) := by
  intro w v writes
  obtain ⟨u, atBody, rfl⟩ := Doc.Writes.afterMinus_iff.mp writes
  have written : ∀ o, Text.Leads u.text (Clear o) (Loose o) := by
    intro o
    obtain ⟨inner, grown, leads⟩ := body o _ _ atBody
    rwa [grown, String.empty_append]
  exact ⟨Doc.guardMinus u.text, rfl, .guardMinus written⟩

theorem when {condition : Bool} (leads : d.Leads ctx P P) : (Doc.when condition d).Leads ctx P P := by
  cases condition with
  | true => exact leads
  | false => exact empty

theorem ofOption {α : Type} {value : Option α} {f : α → Doc} (leads : ∀ x ∈ value, (f x).Leads ctx P P) :
    (Doc.ofOption value f).Leads ctx P P := by
  cases value with
  | none => exact empty
  | some x => exact leads x rfl

theorem concat {α : Type} {items : List α} {f : α → Doc} (leads : ∀ x ∈ items, (f x).Leads ctx P P) :
    (Doc.concat (items.map f)).Leads ctx P P := by
  induction items with
  | nil => exact empty
  | cons x rest ih =>
    have others := ih fun y member => leads y (List.mem_cons_of_mem _ member)
    exact append (leads x (List.mem_cons_self ..)) others

/-- A document with another behind it that may follow anything. -/
theorem trail (first : a.Leads ctx P (Loose opened)) (second : b.Leads ctx (Loose opened) (Loose opened)) :
    (a ++ b).Leads ctx P (Loose opened) :=
  first.append second

/-- Two documents with a break between them. -/
theorem spaced {s : String} (first : a.Leads ctx P (Loose opened)) (broken : Text.isBreak s = true)
    (second : b.Leads ctx (Clear opened) R) : (a ++ Doc.text s ++ b).Leads ctx P R :=
  (first.append (text (.ofBreak broken))).append second

/-- A document right behind a break. -/
theorem behind {s : String} (broken : Text.isBreak s = true) (body : d.Sound ctx) :
    (Doc.text s ++ d).Leads ctx (Loose opened) (Loose opened) :=
  (text (.ofBreak broken)).append (body opened)

theorem onward (body : d.Sound ctx) : (Doc.gap ++ d).Leads ctx (Loose opened) (Loose opened) :=
  gap.append (body opened)

theorem clause {keyword : String} (leads : Text.Leads keyword (Clear opened) (Clear opened)) :
    (Doc.clause keyword).Leads ctx (Loose opened) (Clear opened) :=
  gap.append (text leads)

end Doc.Leads

theorem Doc.Sound.parens {ctx : Context} {d : Doc} (body : d.Sound ctx) : (Doc.parens d).Sound ctx :=
  fun _ => (Doc.Leads.parens body).anywhere.loosen

theorem Doc.Sound.block {ctx : Context} {d : Doc} (body : d.Sound ctx) : (Doc.block d).Sound ctx :=
  fun _ => (Doc.Leads.block body).anywhere.loosen

theorem Doc.Sound.separated {ctx : Context} {separator : String} (broken : Text.isBreak separator = true)
    {docs : List Doc} (sound : ∀ d ∈ docs, d.Sound ctx) :
    (Doc.separated (.text separator) docs).Sound ctx := by
  intro opened
  induction docs with
  | nil => exact Doc.Leads.empty.loosen
  | cons d rest ih =>
    cases rest with
    | nil => exact sound d (List.mem_cons_self ..) opened
    | cons e rest =>
      have first := sound d (List.mem_cons_self ..) opened
      have others := ih fun y member => sound y (List.mem_cons_of_mem _ member)
      exact (first.append (.text (.ofBreak broken))).append others

end SqlTree

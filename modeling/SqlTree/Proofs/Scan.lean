import Mathlib.Logic.Basic
import SqlTree.Text.Quoted

/-!
Scanning a text for its tokens: from left to right, with the two quotes as delimiters of quoted tokens, in
which a doubled delimiter stands for itself. Outside quoted tokens brackets have to be nested, and neither
a comment nor the end of a statement may begin.
-/
namespace SqlTree

inductive Quote where
  | single
  | double
  deriving DecidableEq, Repr

def Quote.char : Quote → Char
  | .single => '\x27'
  | .double => '\x22'

inductive Bracket where
  | round
  | square
  deriving DecidableEq, Repr

/-- Where a scan is: outside quoted tokens, perhaps right behind a minus sign, a slash or a quoted token,
or inside one. -/
inductive Place where
  | clear
  | dash
  | slash
  | inside (q : Quote)
  | after (q : Quote)
  deriving DecidableEq, Repr

def Place.isOutside : Place → Bool
  | .inside _ => false
  | _ => true

/-- A place in a text, and the brackets that are open there. -/
structure Scan where
  place : Place
  opened : List Bracket
  deriving DecidableEq, Repr

/-- What a character means to a scan outside quoted tokens. -/
inductive Mark where
  | quote (q : Quote)
  | opening (bracket : Bracket)
  | closing (bracket : Bracket)
  | semicolon
  | minus
  | star
  | slash
  | plain
  deriving DecidableEq, Repr

def Mark.ofChar (c : Char) : Mark :=
  if c = Quote.single.char then .quote .single
  else if c = Quote.double.char then .quote .double
  else if c = '(' then .opening .round
  else if c = '[' then .opening .square
  else if c = ')' then .closing .round
  else if c = ']' then .closing .square
  else if c = ';' then .semicolon
  else if c = '-' then .minus
  else if c = '*' then .star
  else if c = '/' then .slash
  else .plain

namespace Scan

/-- Closes a bracket, which has to be the one that was opened last. -/
def close (bracket : Bracket) : List Bracket → Option Scan
  | b :: rest => if b = bracket then some ⟨.clear, rest⟩ else none
  | [] => none

/-- One character outside quoted tokens; nothing when it ends a statement, begins a comment or closes a
bracket that is not open. -/
def outside (place : Place) (opened : List Bracket) : Mark → Option Scan
  | .quote q => some ⟨.inside q, opened⟩
  | .opening bracket => some ⟨.clear, bracket :: opened⟩
  | .closing bracket => close bracket opened
  | .semicolon => none
  | .minus => if place = .dash then none else some ⟨.dash, opened⟩
  | .star => if place = .slash then none else some ⟨.clear, opened⟩
  | .slash => some ⟨.slash, opened⟩
  | .plain => some ⟨.clear, opened⟩

/-- One character. Behind a quoted token the same quote again means that the token goes on. -/
def step (s : Scan) (c : Char) : Option Scan :=
  match s.place with
  | .inside q => some ⟨if c = q.char then .after q else .inside q, s.opened⟩
  | .after q => if c = q.char then some ⟨.inside q, s.opened⟩ else outside .clear s.opened (.ofChar c)
  | place => outside place s.opened (.ofChar c)

def run : Scan → List Char → Option Scan
  | s, [] => some s
  | s, c :: rest => (s.step c).bind fun t => t.run rest

theorem run_append (s : Scan) (first second : List Char) :
    s.run (first ++ second) = (s.run first).bind fun t => t.run second := by
  induction first generalizing s with
  | nil => rfl
  | cons c rest ih =>
    cases step : s.step c with
    | none => simp [run, step]
    | some t => simpa [run, step] using ih t

theorem run_trans {s t u : Scan} {first second : List Char} (left : s.run first = some t)
    (right : t.run second = some u) : s.run (first ++ second) = some u := by
  rw [run_append, left]
  exact right

end Scan

/-- The text ends outside quoted tokens with no bracket open, and nothing forbidden stands outside
quoted tokens. -/
def Text.isClosed (text : String) : Bool :=
  match Scan.run ⟨.clear, []⟩ text.toList with
  | some s => s.place.isOutside && s.opened.isEmpty
  | none => false

example : Text.isClosed "f(\'it\'\'s (\', a[1])" = true := by rfl

example : Text.isClosed "1 - -1" = true ∧ Text.isClosed "1 --1" = false :=
  ⟨by rfl, by rfl⟩

example : Text.isClosed "(a]" = false ∧ Text.isClosed "\'a\'\'" = false :=
  ⟨by rfl, by rfl⟩

/-- A text of which no character means anything to a scan. -/
def Text.isPlain (text : String) : Bool :=
  text.toList.all fun c => Mark.ofChar c = .plain

/-- A mark that has the same effect anywhere outside quoted tokens. -/
def Mark.isSoft : Mark → Bool
  | .quote _ | .minus | .star => false
  | _ => true

/-- A text that begins with a character of that sort. -/
def Text.isSoft (text : String) : Bool :=
  match text.toList with
  | c :: _ => (Mark.ofChar c).isSoft
  | [] => false

namespace Scan

/-- The same scan with more brackets open around it. -/
def within (s : Scan) (around : List Bracket) : Scan :=
  ⟨s.place, s.opened ++ around⟩

theorem close_within {bracket : Bracket} {opened : List Bracket} {t : Scan} (around : List Bracket)
    (closed : close bracket opened = some t) :
    close bracket (opened ++ around) = some (t.within around) := by
  cases opened with
  | nil => cases closed
  | cons b rest =>
    simp only [close, Option.ite_none_right_eq_some, Option.some.injEq, List.cons_append] at closed ⊢
    obtain ⟨same, rfl⟩ := closed
    exact ⟨same, rfl⟩

theorem outside_within {place : Place} {opened : List Bracket} {mark : Mark} {t : Scan}
    (around : List Bracket) (stepped : outside place opened mark = some t) :
    outside place (opened ++ around) mark = some (t.within around) := by
  cases mark with
  | quote | opening | slash | plain =>
    cases stepped
    rfl
  | closing bracket => exact close_within around stepped
  | semicolon => cases stepped
  | minus | star =>
    simp only [outside, Option.ite_none_left_eq_some, Option.some.injEq] at stepped ⊢
    obtain ⟨apart, rfl⟩ := stepped
    exact ⟨apart, rfl⟩

theorem step_within {s t : Scan} {c : Char} (around : List Bracket) (stepped : s.step c = some t) :
    (s.within around).step c = some (t.within around) := by
  obtain ⟨place, opened⟩ := s
  cases place with
  | inside q =>
    cases stepped
    rfl
  | after q =>
    simp only [step, within] at stepped ⊢
    split at stepped
    · rename_i same
      cases stepped
      rw [if_pos same]
    · rename_i other
      rw [if_neg other]
      exact outside_within around stepped
  | clear => exact outside_within around stepped
  | dash => exact outside_within around stepped
  | slash => exact outside_within around stepped

/-- A scan goes on in the same way when more brackets are open around it. -/
theorem run_within {s t : Scan} {cs : List Char} (around : List Bracket) (ran : s.run cs = some t) :
    (s.within around).run cs = some (t.within around) := by
  induction cs generalizing s with
  | nil =>
    cases ran
    rfl
  | cons c rest ih =>
    obtain ⟨u, stepped, others⟩ := Option.bind_eq_some_iff.mp ran
    rw [run, step_within around stepped]
    exact ih others

theorem ofChar_quote (q : Quote) : Mark.ofChar q.char = .quote q := by
  cases q <;> rfl

theorem step_soft {c : Char} (soft : (Mark.ofChar c).isSoft = true) {place : Place}
    (outer : place.isOutside = true) (opened : List Bracket) :
    step ⟨place, opened⟩ c = step ⟨.clear, opened⟩ c := by
  have anywhere : ∀ p, outside p opened (.ofChar c) = outside .clear opened (.ofChar c) := by
    intro p
    cases atMark : Mark.ofChar c <;> rw [atMark] at soft <;> first | rfl | cases soft
  cases place with
  | inside q => cases outer
  | after q =>
    have other : c ≠ q.char := by
      rintro rfl
      rw [ofChar_quote] at soft
      cases soft
    simp [step, other]
  | clear => rfl
  | dash => exact anywhere .dash
  | slash => exact anywhere .slash

theorem ofChar_eq_minus {c : Char} (minus : Mark.ofChar c = .minus) : c = '-' := by
  simp only [Mark.ofChar, ite_eq_iff, reduceCtorEq, and_false, false_or, or_false, and_true] at minus
  exact minus.2.2.2.2.2.2.2

/-- Behind a minus sign only another one matters. -/
theorem step_dash {c : Char} (other : c ≠ '-') (opened : List Bracket) :
    step ⟨.dash, opened⟩ c = step ⟨.clear, opened⟩ c := by
  change outside .dash opened (.ofChar c) = outside .clear opened (.ofChar c)
  cases atMark : Mark.ofChar c with
  | minus => exact absurd (ofChar_eq_minus atMark) other
  | _ => rfl

/-- Where a soft text begins does not matter, as long as it is outside quoted tokens. -/
theorem run_soft {text : String} (soft : Text.isSoft text = true) {place : Place}
    (outer : place.isOutside = true) (opened : List Bracket) :
    run ⟨place, opened⟩ text.toList = run ⟨.clear, opened⟩ text.toList := by
  unfold Text.isSoft at soft
  split at soft
  · rename_i c rest cut
    rw [cut, run, run, step_soft soft outer]
  · cases soft

theorem run_plain {text : String} (plain : Text.isPlain text = true) (opened : List Bracket) :
    run ⟨.clear, opened⟩ text.toList = some ⟨.clear, opened⟩ := by
  unfold Text.isPlain at plain
  generalize text.toList = cs at plain
  induction cs with
  | nil => rfl
  | cons c rest ih =>
    rw [List.all_cons, Bool.and_eq_true, decide_eq_true_eq] at plain
    have stepped : step ⟨.clear, opened⟩ c = some ⟨.clear, opened⟩ := by
      simp only [step, plain.1]
      rfl
    rw [run, stepped]
    exact ih plain.2

/-- What is doubled inside a quoted token does not end it. -/
theorem run_doubled (q : Quote) (opened : List Bracket) (cs : List Char) :
    run ⟨.inside q, opened⟩ (Text.doubled q.char cs) = some ⟨.inside q, opened⟩ := by
  induction cs with
  | nil => rfl
  | cons c rest ih =>
    by_cases same : c = q.char
    · simpa [Text.doubled, same, run, step] using ih
    · simpa [Text.doubled, same, run, step] using ih

/-- Characters other than the delimiter stay inside a quoted token. -/
theorem run_inside (q : Quote) (opened : List Bracket) {cs : List Char} (other : q.char ∉ cs) :
    run ⟨.inside q, opened⟩ cs = some ⟨.inside q, opened⟩ := by
  induction cs with
  | nil => rfl
  | cons c rest ih =>
    rw [List.mem_cons, not_or] at other
    simpa [run, step, Ne.symm other.1] using ih other.2

end Scan

end SqlTree

import SqlTree.Proofs.AppendOnly
import SqlTree.Proofs.BuiltValid
import SqlTree.Proofs.EveryTerm
import SqlTree.Proofs.NumberedLooks
import SqlTree.Proofs.Rendered
import SqlTree.Proofs.ScalarText
import SqlTree.Proofs.Visited

/-!
Row windows can be told apart by the text. Two queries that differ in nothing but the rows they ask for
are written with the same text only when they ask for the same rows: all that is written before, between
and behind the places of a row window is the same, and the numbers can be read off what is left.
-/
namespace SqlTree

namespace Text

/-- A number between two texts, where there is a number. -/
def counted (before after : String) (n : Option UInt64) : String :=
  n.elim "" fun n => before ++ Render.number n ++ after

/-- A number is all of a text up to the first character that is no digit. -/
theorem number_append_inj {m n : UInt64} {s t : String}
    (left : ∀ c ∈ s.toList.head?, c.isDigit = false) (right : ∀ c ∈ t.toList.head?, c.isDigit = false)
    (same : Render.number m ++ s = Render.number n ++ t) : m = n ∧ s = t := by
  have read : ∀ {n : UInt64} {s : String}, (∀ c ∈ s.toList.head?, c.isDigit = false) →
      (Render.number n ++ s).toList.takeWhile Char.isDigit = (Render.number n).toList := by
    intro n s apart
    obtain ⟨_, digits, _⟩ := number_digits n.toNat
    have all := List.all_eq_true.mp digits
    rw [String.toList_append]
    cases rest : s.toList with
    | nil => rw [List.append_nil, Render.number, takeWhile_digits all]
    | cons c cs =>
      rw [rest] at apart
      exact takeWhile_digits_append all (apart c rfl) cs
  have digits : (Render.number m).toList = (Render.number n).toList := by
    rw [← read left, ← read right, same]
  have value := congrArg digitsValue digits
  rw [Render.number, Render.number, (number_digits m.toNat).2.2, (number_digits n.toNat).2.2] at value
  obtain rfl := UInt64.toNat_inj.mp value
  exact ⟨rfl, (String.append_right_inj _).mp same⟩

/-- Whether there is a number, and which, can be told when what follows begins neither like a number that
goes on nor like the text before a number. -/
theorem counted_append_inj {before after s t : String} {m n : Option UInt64}
    (left : ∀ c ∈ (after ++ s).toList.head?, c.isDigit = false)
    (right : ∀ c ∈ (after ++ t).toList.head?, c.isDigit = false)
    (leftApart : ¬before.toList <+: s.toList) (rightApart : ¬before.toList <+: t.toList)
    (same : counted before after m ++ s = counted before after n ++ t) : m = n ∧ s = t := by
  have begun : ∀ {n : UInt64} {s t : String}, counted before after (some n) ++ s = "" ++ t →
      before.toList <+: t.toList := by
    intro n s t same
    rw [String.empty_append] at same
    rw [← same]
    simp [counted]
  cases m with
  | none =>
    cases n with
    | none => exact ⟨rfl, by simpa [counted] using same⟩
    | some n => exact absurd (begun same.symm) leftApart
  | some m =>
    cases n with
    | none => exact absurd (begun same) rightApart
    | some n =>
      have numbers : Render.number m ++ (after ++ s) = Render.number n ++ (after ++ t) := by
        simpa [counted, String.append_assoc] using same
      obtain ⟨rfl, rest⟩ := number_append_inj left right numbers
      exact ⟨rfl, (String.append_right_inj after).mp rest⟩

theorem counted_inj {before after : String} {m n : Option UInt64} (begun : before ≠ "")
    (apart : ∀ c ∈ after.toList.head?, c.isDigit = false)
    (same : counted before after m = counted before after n) : m = n := by
  have never : ¬before.toList <+: "".toList := by simpa using begun
  have apart' : ∀ c ∈ (after ++ "").toList.head?, c.isDigit = false := by simpa using apart
  exact (counted_append_inj apart' apart' never never (congrArg (· ++ "") same)).1

end Text

namespace PaginationStyle

/-- The rows that a window asks for, where it asks for any. With `FETCH` no offset is the offset zero. -/
def asked (p : PaginationStyle) (window : Option LimitOffset) : Option LimitOffset :=
  (window.filter fun w => !w.isEmpty).map fun w =>
    if p = .offsetFetch then { w with offset := some (w.offset.getD 0) } else w

/-- The bounds of what is asked for; where nothing is, there are none. -/
def bounds (p : PaginationStyle) (window : Option LimitOffset) : LimitOffset :=
  (p.asked window).getD ⟨none, none⟩

/-- What is written for a row window in the head of a SELECT. -/
def head (p : PaginationStyle) (window : Option LimitOffset) : String :=
  match p with
  | .top => Text.counted " TOP " "" (p.bounds window).limit
  | _ => ""

/-- What is written for a row window behind the clauses of a query. -/
def tail (p : PaginationStyle) (separator : String) (window : Option LimitOffset) : String :=
  let w := p.bounds window
  match p with
  | .limitOffset =>
    Text.counted (separator ++ "LIMIT ") "" w.limit ++ Text.counted (separator ++ "OFFSET ") "" w.offset
  | .offsetFetch =>
    Text.counted (separator ++ "OFFSET ") " ROWS" w.offset ++
      Text.counted (separator ++ "FETCH NEXT ") " ROWS ONLY" w.limit
  | .top => ""

variable {p : PaginationStyle} {a b : Option LimitOffset}

theorem asked_ne_empty : p.asked a ≠ some ⟨none, none⟩ := by
  intro empty
  obtain ⟨w, kept, same⟩ := Option.map_eq_some_iff.mp empty
  obtain ⟨_, some⟩ := Option.filter_eq_some_iff.mp kept
  split at same
  · cases (LimitOffset.mk.inj same).2
  · subst same
    cases some

theorem bounds_of_isEmpty {w : LimitOffset} (empty : w.isEmpty = true) : p.bounds (some w) = ⟨none, none⟩ := by
  simp [bounds, asked, Option.filter, empty]

theorem bounds_some {w : LimitOffset} (solid : w.isEmpty = false) :
    p.bounds (some w) = if p = .offsetFetch then { w with offset := some (w.offset.getD 0) } else w := by
  simp [bounds, asked, Option.filter, solid]

/-- But for `FETCH`, the bounds are those of the window. -/
theorem bounds_plain (other : p ≠ .offsetFetch) (w : LimitOffset) : p.bounds (some w) = w := by
  cases empty : w.isEmpty with
  | true =>
    obtain ⟨limit, offset⟩ := w
    simp only [LimitOffset.isEmpty, Bool.and_eq_true, Option.isNone_iff_eq_none] at empty
    obtain ⟨rfl, rfl⟩ := empty
    exact bounds_of_isEmpty rfl
  | false => rw [bounds_some empty, if_neg other]

/-- What is asked for is known from its bounds. -/
theorem asked_eq_of_bounds (same : p.bounds a = p.bounds b) : p.asked a = p.asked b := by
  unfold bounds at same
  cases left : p.asked a with
  | none =>
    cases right : p.asked b with
    | none => rfl
    | some w =>
      rw [left, right] at same
      exact absurd (right.trans (congrArg some same.symm)) asked_ne_empty
  | some v =>
    cases right : p.asked b with
    | none =>
      rw [left, right] at same
      exact absurd (left.trans (congrArg some same)) asked_ne_empty
    | some w =>
      rw [left, right] at same
      exact congrArg some same

end PaginationStyle

namespace Layout

/-- A break between clauses begins with white space. -/
theorem separator_head (l : Layout) : ∃ c ∈ l.separator.toList.head?, c.isDigit = false := by
  unfold Layout.separator
  split
  · exact ⟨'\n', by simp [Layout.newline], rfl⟩
  · exact ⟨' ', rfl, rfl⟩

/-- A number behind a clause is not followed by a digit. -/
theorem apart_counted (l : Layout) (keyword after : String) (n : Option UInt64) :
    ∀ c ∈ (Text.counted (l.separator ++ keyword) after n).toList.head?, c.isDigit = false := by
  obtain ⟨c, first, other⟩ := l.separator_head
  have begun : l.separator.toList ≠ [] := by
    intro none
    rw [none] at first
    cases first
  intro d start
  cases n with
  | none => cases start
  | some n =>
    simp only [Text.counted, Option.elim_some, String.toList_append, List.append_assoc] at start
    rw [List.head?_append_of_ne_nil _ begun, first] at start
    cases start
    exact other

/-- Clauses that begin with different letters are told apart behind the same break. -/
theorem not_prefix_counted (l : Layout) {first second : String} {c d : Char} {cs ds : List Char}
    (left : first.toList = c :: cs) (right : second.toList = d :: ds) (differ : c ≠ d) (after : String)
    (n : Option UInt64) :
    ¬(l.separator ++ first).toList <+: (Text.counted (l.separator ++ second) after n).toList := by
  intro begins
  cases n with
  | none => simp [Text.counted, left] at begins
  | some n => simp [Text.counted, left, right, List.append_assoc, List.cons_prefix_cons, differ] at begins

end Layout

/-- In one layout and one style, the text of a row window tells what it asks for. -/
theorem PaginationStyle.asked_eq_of_text {p : PaginationStyle} (l : Layout) {a b : Option LimitOffset}
    (plain : p = .top → (p.bounds a).offset = (p.bounds b).offset)
    (heads : p.head a = p.head b) (tails : p.tail l.separator a = p.tail l.separator b) :
    p.asked a = p.asked b := by
  apply asked_eq_of_bounds
  have begun : ∀ {keyword : String}, keyword ≠ "" → l.separator ++ keyword ≠ "" := fun solid none =>
    solid (String.append_eq_empty_iff.mp none).2
  cases p with
  | top =>
    have limits := Text.counted_inj (by decide) (by simp) heads
    exact congrArg₂ LimitOffset.mk limits (plain rfl)
  | limitOffset =>
    have limit : ("LIMIT ").toList = 'L' :: "IMIT ".toList := rfl
    have offset : ("OFFSET ").toList = 'O' :: "FFSET ".toList := rfl
    obtain ⟨limits, rest⟩ := Text.counted_append_inj (by simpa using l.apart_counted _ _ _)
      (by simpa using l.apart_counted _ _ _) (l.not_prefix_counted limit offset (by decide) _ _)
      (l.not_prefix_counted limit offset (by decide) _ _) tails
    exact congrArg₂ LimitOffset.mk limits (Text.counted_inj (begun (by decide)) (by simp) rest)
  | offsetFetch =>
    have fetch : ("FETCH NEXT ").toList = 'F' :: "ETCH NEXT ".toList := rfl
    have offset : ("OFFSET ").toList = 'O' :: "FFSET ".toList := rfl
    have rows : ∀ s : String, ∀ c ∈ (" ROWS" ++ s).toList.head?, c.isDigit = false := by
      intro s
      simp [String.toList_append]
    obtain ⟨offsets, rest⟩ := Text.counted_append_inj (rows _) (rows _)
      (l.not_prefix_counted offset fetch (by decide) _ _) (l.not_prefix_counted offset fetch (by decide) _ _) tails
    have only : ∀ c ∈ (" ROWS ONLY").toList.head?, c.isDigit = false := by
      rintro _ ⟨⟩
      rfl
    exact congrArg₂ LimitOffset.mk (Text.counted_inj (begun (by decide)) only rest) offsets

section Writes

variable {ctx : Context} {style : Style} {u v : Writer}

theorem Doc.Writes.clause_iff {keyword : String} :
    (Doc.clause keyword).Writes ctx u v ↔ v = u.write (u.layout.separator ++ keyword) := by
  rw [Doc.clause, Doc.Writes.append_iff]
  simp only [Doc.Writes.gap_iff, Doc.Writes.text_iff, exists_eq_left, u.separator_eq]
  simp only [Writer.write, String.append_assoc]

theorem Doc.Writes.counted_iff {before after : String} {n : Option UInt64} :
    (Doc.ofOption n fun n => Doc.clause (before ++ Render.number n ++ after)).Writes ctx u v ↔
      v = u.write (Text.counted (u.layout.separator ++ before) after n) := by
  cases n with
  | none =>
    have nothing : u.write "" = u := by simp [Writer.write]
    rw [Text.counted, Option.elim_none, nothing]
    exact Doc.Writes.empty_iff
  | some n =>
    have clause := @Doc.Writes.clause_iff ctx u v (before ++ Render.number n ++ after)
    simpa [Doc.ofOption, Text.counted, String.append_assoc] using clause

/-- What stands for a row window behind the clauses. -/
theorem Render.pagination_writes {window : Option LimitOffset} {ordered : Bool}
    (writes : (Render.pagination style window ordered).Writes ctx u v) :
    ∃ log, v = u.behind (u.text ++ style.pagination.tail u.layout.separator window) log := by
  have nothing : ∀ {s : String}, s = "" → u = u.behind (u.text ++ s) u.log := by
    rintro s rfl
    rw [String.append_empty]
    rfl
  unfold Render.pagination at writes
  cases window with
  | none =>
    obtain rfl := Doc.Writes.empty_iff.mp writes
    exact ⟨_, nothing (by cases style.pagination <;> rfl)⟩
  | some w =>
    cases empty : w.isEmpty with
    | true =>
      simp only [empty, if_true] at writes
      obtain rfl := Doc.Writes.empty_iff.mp writes
      refine ⟨_, nothing ?_⟩
      simp only [PaginationStyle.tail, PaginationStyle.bounds_of_isEmpty empty]
      cases style.pagination <;> rfl
    | false =>
      simp only [empty, Bool.false_eq_true, if_false] at writes
      simp only [PaginationStyle.tail, PaginationStyle.bounds_some empty]
      cases kind : style.pagination with
      | top =>
        simp only [kind] at writes
        obtain rfl := Doc.Writes.empty_iff.mp writes
        exact ⟨_, nothing rfl⟩
      | limitOffset =>
        simp only [kind] at writes
        obtain ⟨t, first, second⟩ := Doc.Writes.append_iff.mp writes
        obtain rfl := (@Doc.Writes.counted_iff _ _ _ _ "" _).mp (by simpa using first)
        obtain rfl := (@Doc.Writes.counted_iff _ _ _ _ "" _).mp (by simpa using second)
        refine ⟨u.log, ?_⟩
        simp only [reduceCtorEq, if_false, Writer.write, Writer.behind, Writer.layout, String.append_assoc]
      | offsetFetch =>
        simp only [kind] at writes
        obtain ⟨s, first, fetch⟩ := Doc.Writes.append_iff.mp writes
        obtain ⟨t, noted, offset⟩ := Doc.Writes.append_iff.mp first
        have page : ∃ log, t = u.behind u.text log := by
          cases ordered with
          | true => exact ⟨u.log, Doc.Writes.empty_iff.mp noted⟩
          | false => exact ⟨_, Doc.Writes.note_iff.mp noted⟩
        obtain ⟨log, rfl⟩ := page
        obtain rfl := Doc.Writes.clause_iff.mp offset
        obtain rfl := Doc.Writes.counted_iff.mp fetch
        refine ⟨log, ?_⟩
        simp only [if_true, Text.counted, Option.elim_some, Writer.write, Writer.behind, Writer.layout,
          String.append_assoc]

/-- What stands for a row window in the head of a SELECT, in which TOP stands without an offset. -/
theorem Render.top_writes {window : Option LimitOffset} (writes : (Render.top style window).Writes ctx u v) :
    v = u.write (style.pagination.head window) ∧
      (style.pagination = .top → (style.pagination.bounds window).offset = none) := by
  have nothing : u.write "" = u := by simp [Writer.write]
  unfold Render.top at writes
  cases kind : style.pagination with
  | top =>
    cases window with
    | none =>
      simp only [kind] at writes
      exact ⟨(Doc.Writes.empty_iff.mp writes).trans nothing.symm, fun _ => rfl⟩
    | some w =>
      rw [PaginationStyle.head, PaginationStyle.bounds_plain (by decide)]
      simp only [kind] at writes
      split at writes
      · exact absurd writes Doc.Writes.not_fail
      · rename_i noOffset
        refine ⟨?_, fun _ => by simpa using noOffset⟩
        cases limit : w.limit with
        | none =>
          rw [limit] at writes
          exact (Doc.Writes.empty_iff.mp writes).trans nothing.symm
        | some n =>
          rw [limit] at writes
          have text := Doc.Writes.text_iff.mp writes
          simpa [Text.counted] using text
  | limitOffset | offsetFetch =>
    simp only [kind] at writes
    exact ⟨(Doc.Writes.empty_iff.mp writes).trans nothing.symm, fun other => by cases other⟩

/-- Where a set operation has its row window at the end, TOP allows none. -/
theorem Render.compositeTop_head {window : Option LimitOffset}
    (writes : (Render.compositeTop style window).Writes ctx u v) :
    v = u.write (style.pagination.head window) ∧
      (style.pagination = .top → style.pagination.bounds window = ⟨none, none⟩) := by
  have nothing : u.write "" = u := by simp [Writer.write]
  obtain rfl := Render.compositeTop_writes writes
  unfold Render.compositeTop at writes
  cases kind : style.pagination with
  | top =>
    have none : PaginationStyle.bounds .top window = ⟨none, none⟩ := by
      cases window with
      | none => rfl
      | some w =>
        simp only [kind] at writes
        split at writes
        · exact absurd writes Doc.Writes.not_fail
        · rename_i noOffset
          split at writes
          · exact absurd writes Doc.Writes.not_fail
          · rename_i noLimit
            rw [PaginationStyle.bounds_plain (by decide)]
            exact congrArg₂ LimitOffset.mk (by simpa using noLimit) (by simpa using noOffset)
    refine ⟨?_, fun _ => none⟩
    rw [PaginationStyle.head, none]
    exact nothing.symm
  | limitOffset | offsetFetch => exact ⟨nothing.symm, fun other => by cases other⟩

/-- Two documents that are alike but for a row window, which may be told in two places, write the same text
only if the windows ask for the same. -/
theorem Render.asked_eq_of_text {front middle last : Doc} {top : Option LimitOffset → Doc} {ordered : Bool}
    (tops : ∀ {window : Option LimitOffset} {u v : Writer}, (top window).Writes ctx u v →
      v = u.write (style.pagination.head window) ∧
        (style.pagination = .top → (style.pagination.bounds window).offset = none))
    {a b : Option LimitOffset} {page v v' : Writer}
    (writes : (front ++ (top a ++ (middle ++ (Render.pagination style a ordered ++ last)))).Writes ctx page v)
    (writes' : (front ++ (top b ++ (middle ++ (Render.pagination style b ordered ++ last)))).Writes ctx page v')
    (same : v.text = v'.text) : style.pagination.asked a = style.pagination.asked b := by
  simp only [Doc.Writes.append_iff] at writes writes'
  obtain ⟨u, atFront, t, atTop, s, atMiddle, r, atTail, atLast⟩ := writes
  obtain ⟨u', atFront', t', atTop', s', atMiddle', r', atTail', atLast'⟩ := writes'
  obtain rfl : u = u' := (Prod.mk.inj (Eq.trans atFront.symm atFront')).2
  obtain ⟨rfl, noOffset⟩ := tops atTop
  obtain ⟨rfl, noOffset'⟩ := tops atTop'
  obtain ⟨between, events, middle⟩ := atMiddle.appended
  obtain rfl := middle.eq_of_behind (u.text ++ style.pagination.head b) u.log atMiddle'
  obtain ⟨log, rfl⟩ := Render.pagination_writes atTail
  obtain ⟨log', rfl⟩ := Render.pagination_writes atTail'
  obtain ⟨behind, others, ending⟩ := atLast.appended
  obtain rfl := ending.eq_of_behind _ _ atLast'
  have text : v.text = u.text ++ style.pagination.head a ++ between ++
      style.pagination.tail s.layout.separator a ++ behind := by
    rw [ending.text]
    change s.text ++ _ ++ behind = _
    rw [middle.text]
    rfl
  -- only what is written for the windows is left to tell the texts apart
  have around : style.pagination.head a ++ between ++ style.pagination.tail s.layout.separator a =
      style.pagination.head b ++ between ++ style.pagination.tail s.layout.separator b := by
    have whole :
        u.text ++ style.pagination.head a ++ between ++ style.pagination.tail s.layout.separator a ++ behind =
        u.text ++ style.pagination.head b ++ between ++ style.pagination.tail s.layout.separator b ++ behind :=
      text.symm.trans same
    rw [String.append_left_inj] at whole
    simpa only [String.append_assoc, String.append_right_inj] using whole
  refine PaginationStyle.asked_eq_of_text s.layout (fun top => (noOffset top).trans (noOffset' top).symm) ?_ ?_
  · cases kind : style.pagination with
    | top =>
      rw [kind] at around
      exact (String.append_left_inj between).mp ((String.append_left_inj "").mp around)
    | limitOffset | offsetFetch => rfl
  · cases kind : style.pagination with
    | top => rfl
    | limitOffset | offsetFetch =>
      rw [kind] at around
      exact (String.append_right_inj _).mp around

end Writes

end SqlTree

import Mathlib.Data.List.TakeWhile
import SqlTree.Literal

namespace SqlTree

namespace Text

theorem isWhiteSpace_of_digit {c : Char} (digit : c.isDigit = true) : isWhiteSpace c = false := by
  have bounds : 48 ≤ c.toNat ∧ c.toNat ≤ 57 := by
    simpa [Char.isDigit, UInt32.le_iff_toNat_le] using digit
  simp only [isWhiteSpace, whiteSpace, List.any_cons, List.any_nil, Bool.or_false, Bool.or_eq_false_iff,
    Bool.and_eq_false_iff, decide_eq_false_iff_not]
  omega

theorem trimStart_cons {c : Char} (solid : isWhiteSpace c = false) (cs : List Char) :
    trimStart (c :: cs) = c :: cs := by
  simp [trimStart, solid]

/-- A run of digits that is not empty is not trimmed. -/
theorem trimStart_digits {digits : List Char} (all : ∀ c ∈ digits, c.isDigit = true) (some : digits ≠ [])
    (rest : List Char) : trimStart (digits ++ rest) = digits ++ rest := by
  cases digits with
  | nil => exact absurd rfl some
  | cons c cs => exact trimStart_cons (isWhiteSpace_of_digit (all c List.mem_cons_self)) _

theorem takeWhile_digits {digits : List Char} (all : ∀ c ∈ digits, c.isDigit = true) :
    digits.takeWhile Char.isDigit = digits :=
  List.takeWhile_eq_self_iff.mpr all

/-- Digits are read up to the first character that is none. -/
theorem takeWhile_digits_append {digits : List Char} (all : ∀ c ∈ digits, c.isDigit = true) {c : Char}
    (other : c.isDigit = false) (rest : List Char) :
    (digits ++ c :: rest).takeWhile Char.isDigit = digits := by
  rw [List.takeWhile_append, takeWhile_digits all, if_pos rfl]
  simp [other]

/-- A natural number is written as its decimal digits. -/
theorem number_digits (n : Nat) :
    toString n ≠ "" ∧ (toString n).toList.all Char.isDigit = true ∧ digitsValue (toString n).toList = n := by
  have cut : (toString n).toList = Nat.toDigits 10 n := by simp
  refine ⟨?_, ?_, ?_⟩
  · rw [Ne, ← String.toList_eq_nil_iff, cut]
    exact Nat.toDigits_ne_nil
  · rw [cut, List.all_eq_true]
    exact fun c member => Nat.isDigit_of_mem_toDigits (by decide) (by decide) member
  · rw [cut]
    exact Nat.ofDigitChars_ten_toDigits

theorem all_isWordChar_of_digits {s : String} (digits : s.toList.all Char.isDigit = true) :
    s.toList.all isWordChar = true := by
  refine List.all_eq_true.mpr fun c member => ?_
  have digit := List.all_eq_true.mp digits c member
  simp [isWordChar, Char.isAlphanum, digit]

section

variable (width n : Nat)

theorem padded_toList :
    (padded width n).toList = List.replicate (width - (Nat.toDigits 10 n).length) '0' ++ Nat.toDigits 10 n :=
  String.toList_ofList

theorem padded_digits : ∀ c ∈ (padded width n).toList, c.isDigit = true := by
  intro c member
  rw [padded_toList] at member
  rcases List.mem_append.mp member with zero | digit
  · rw [List.eq_of_mem_replicate zero]
    rfl
  · exact Nat.isDigit_of_mem_toDigits (by decide) (by decide) digit

theorem padded_ne_nil : (padded width n).toList ≠ [] := by
  rw [padded_toList]
  simp [Nat.toDigits_ne_nil]

theorem digitsValue_padded : digitsValue (padded width n).toList = n := by
  rw [padded_toList]
  change Nat.ofDigitChars 10 _ 0 = n
  rw [Nat.ofDigitChars_append, Nat.ofDigitChars_replicate_zero, Nat.mul_zero,
    Nat.ofDigitChars_ten_toDigits]

variable {width n}

theorem length_padded (room : 0 < width) (fits : n < Nat.pow 10 width) :
    (padded width n).toList.length = width := by
  have short := (Nat.length_toDigits_le_iff (by decide : 1 < 10) room).mpr fits
  rw [padded_toList, List.length_append, List.length_replicate]
  omega

end

end Text

namespace Calendar

/-- A number of at most so many digits is read back, whatever follows. -/
theorem number_padded {width n : Nat} (room : 0 < width) (fits : n < Nat.pow 10 width) (rest : List Char) :
    number width ((Text.padded width n).toList ++ rest) = some (n, rest) := by
  have digits := Text.padded_digits width n
  have some := Text.padded_ne_nil width n
  have length := Text.length_padded room fits
  unfold number
  simp only [Text.trimStart_digits digits some, List.take_left' length, Text.takeWhile_digits digits,
    List.drop_left, Text.digitsValue_padded]
  rw [if_neg (by simpa using some)]

theorem separator_cons {c : Char} (solid : Text.isWhiteSpace c = false) (rest : List Char) :
    separator c (c :: rest) = some ((), rest) := by
  simp [separator, Text.trimStart_cons solid]

/-- A year without a sign is a number of four digits. -/
theorem year_of_digits {digits : List Char} (all : ∀ c ∈ digits, c.isDigit = true) (some : digits ≠ [])
    (rest : List Char) :
    year (digits ++ rest) = (number 4 (digits ++ rest)).map fun r => ((r.1 : Int), r.2) := by
  cases digits with
  | nil => exact absurd rfl some
  | cons c cs =>
    have digit := all c List.mem_cons_self
    unfold year
    rw [Text.trimStart_digits all some]
    dsimp only
    split
    · rename_i minus
      cases minus
      cases digit
    · rename_i plus
      cases plus
      cases digit
    · rfl

/-- The year of a text with a hyphen behind it is read back. -/
theorem year_yearText (y : Int) (rest : List Char) :
    year ((Date.yearText y).toList ++ '-' :: rest) = some (y, '-' :: rest) := by
  have digits := Text.padded_digits 4 y.natAbs
  have run := Text.takeWhile_digits_append digits (c := '-') rfl rest
  have some : (Text.padded 4 y.natAbs).toList.isEmpty = false := by
    simpa using Text.padded_ne_nil 4 y.natAbs
  unfold Date.yearText
  split
  · rename_i negative
    rw [String.toList_append]
    change year ('-' :: ((Text.padded 4 y.natAbs).toList ++ '-' :: rest)) = _
    rw [year, Text.trimStart_cons (by decide)]
    simp only [run, some, Text.digitsValue_padded, List.drop_left, Bool.false_eq_true, if_false,
      Option.map_some]
    rw [show -(y.natAbs : Int) = y by omega]
  · split
    · rw [String.toList_append]
      change year ('+' :: ((Text.padded 4 y.natAbs).toList ++ '-' :: rest)) = _
      rw [year, Text.trimStart_cons (by decide)]
      simp only [run, some, Text.digitsValue_padded, List.drop_left, Bool.false_eq_true, if_false,
        Option.map_some]
      rw [show (y.natAbs : Int) = y by omega]
    · have fits : y.natAbs < Nat.pow 10 4 := by
        change _ < 10000
        omega
      have read := number_padded (by decide : 0 < 4) fits ('-' :: rest)
      rw [year_of_digits digits (Text.padded_ne_nil _ _), read, Option.map_some,
        show (y.natAbs : Int) = y by omega]

end Calendar

/-- A date that the calendar has. -/
def Date.InRange (d : Date) : Prop :=
  Date.make? d.year d.month d.day = some d

/-- The text of a date is read back, whatever follows. -/
theorem Date.scan_text {d : Date} (range : d.InRange) (rest : List Char) :
    Date.scan (d.text.toList ++ rest) = some (d, rest) := by
  have bounds : d.month < Nat.pow 10 2 ∧ d.day < Nat.pow 10 2 := by
    change d.month < 100 ∧ d.day < 100
    have within := range
    unfold Date.InRange Date.make? at within
    split at within
    · rename_i bounds
      have longest : Date.daysIn d.year d.month ≤ 31 := by
        unfold Date.daysIn
        split
        · split <;> decide
        · split <;> decide
      omega
    · cases within
  have hyphen := Calendar.separator_cons (c := '-') (by decide)
  have text : d.text.toList ++ rest = (Date.yearText d.year).toList ++ '-' :: ((Text.padded 2 d.month).toList ++
      '-' :: ((Text.padded 2 d.day).toList ++ rest)) := by
    simp [Date.text]
  unfold Date.scan
  simp only [text, Calendar.year_yearText, hyphen, Calendar.number_padded (by decide : 0 < 2) bounds.1,
    Calendar.number_padded (by decide : 0 < 2) bounds.2, Option.bind_eq_bind, Option.bind_some]
  rw [range]
  rfl

theorem Date.ofText?_text {d : Date} (range : d.InRange) : Date.ofText? d.text = some d := by
  have read := Date.scan_text range []
  rw [List.append_nil] at read
  unfold Date.ofText?
  rw [read]
  rfl

/-- A time of day; the second 60 is a leap second. -/
structure Time.InRange (t : Time) : Prop where
  hour : t.hour ≤ 23
  minute : t.minute ≤ 59
  second : t.second ≤ 60
  nano : t.nano < Nat.pow 10 9

namespace Time

theorem scanMinute_text {t : Time} (range : t.InRange) (rest : List Char) :
    scanMinute ((Text.padded 2 t.hour).toList ++ ':' :: ((Text.padded 2 t.minute).toList ++ rest)) =
      some ((t.hour, t.minute), rest) := by
  obtain ⟨hour, minute, _, _⟩ := range
  have colon := Calendar.separator_cons (c := ':') (by decide)
  unfold scanMinute
  simp only [colon, Calendar.number_padded (by decide : 0 < 2) (by change _ < 100; omega : t.hour < Nat.pow 10 2),
    Calendar.number_padded (by decide : 0 < 2) (by change _ < 100; omega : t.minute < Nat.pow 10 2),
    Option.bind_eq_bind, Option.bind_some]
  rw [if_pos ⟨hour, minute⟩]

/-- Digits after the point count from the left. -/
theorem scanFraction_padded {width n nano : Nat} (room : 0 < width) (short : width ≤ 9)
    (fits : n < Nat.pow 10 width) (value : n * Nat.pow 10 (9 - width) = nano) :
    scanFraction ('.' :: (Text.padded width n).toList) = some (nano, []) := by
  have digits := Text.padded_digits width n
  have some := Text.padded_ne_nil width n
  have length := Text.length_padded room fits
  unfold scanFraction
  simp only [Text.takeWhile_digits digits, List.take_of_length_le (length.trans_le short), length,
    Text.digitsValue_padded, value]
  rw [if_neg (by simpa using some), List.drop_eq_nil_of_le length.le]

theorem scanFraction_text {nano : Nat} (range : nano < Nat.pow 10 9) :
    scanFraction (fractionText nano).toList = some (nano, []) := by
  change nano < 1000000000 at range
  unfold fractionText
  split
  · rename_i none
    rw [none]
    rfl
  · split
    · rw [String.toList_append]
      exact scanFraction_padded (by decide) (by decide) (by change _ < 1000; omega)
        (by change _ * 1000000 = _; omega)
    · split
      · rw [String.toList_append]
        exact scanFraction_padded (by decide) (by decide) (by change _ < 1000000; omega)
          (by change _ * 1000 = _; omega)
      · rw [String.toList_append]
        exact scanFraction_padded (by decide) (by decide) range (Nat.mul_one nano)

theorem scanSecond_text {t : Time} (range : t.InRange) :
    scanSecond (':' :: ((Text.padded 2 t.second).toList ++ (fractionText t.nano).toList)) =
      some ((t.second, t.nano), []) := by
  obtain ⟨_, _, second, nano⟩ := range
  have colon := Calendar.separator_cons (c := ':') (by decide)
  unfold scanSecond
  simp only [colon, Calendar.number_padded (by decide : 0 < 2) (by change _ < 100; omega : t.second < Nat.pow 10 2),
    scanFraction_text nano, Option.bind_eq_bind, Option.bind_some]
  rw [if_pos second]

theorem text_toList (t : Time) : t.text.toList =
    (Text.padded 2 t.hour).toList ++ ':' :: ((Text.padded 2 t.minute).toList ++
      ':' :: ((Text.padded 2 t.second).toList ++ (fractionText t.nano).toList)) := by
  simp [Time.text]

/-- The text of a time is read back at the end of a text. -/
theorem scan_text {t : Time} (range : t.InRange) : Time.scan t.text.toList = some (t, []) := by
  unfold Time.scan
  simp only [text_toList, scanMinute_text range, scanSecond_text range, Option.bind_eq_bind,
    Option.bind_some]
  rfl

theorem ofText?_text {t : Time} (range : t.InRange) : Time.ofText? t.text = some t := by
  unfold Time.ofText?
  simp only [text_toList, scanMinute_text range, scanSecond_text range, Option.bind_eq_bind,
    Option.bind_some]
  rfl

end Time

structure Timestamp.InRange (t : Timestamp) : Prop where
  date : t.date.InRange
  time : t.time.InRange

theorem Timestamp.ofText?_text {t : Timestamp} (range : t.InRange) : Timestamp.ofText? t.text = some t := by
  have text : t.text.toList = t.date.text.toList ++ 'T' :: t.time.text.toList := by
    simp [Timestamp.text, Timestamp.textWith]
  have mark := Calendar.separator_cons (c := 'T') (by decide)
  unfold Timestamp.ofText?
  simp only [text, Date.scan_text range.date, mark, Time.scan_text range.time, Option.bind_eq_bind,
    Option.bind_some]
  rfl

/-- A decimal of at most 28 fraction digits whose coefficient is not too great. -/
structure Decimal.InRange (d : Decimal) : Prop where
  coefficient : d.coefficient ≤ Decimal.maxCoefficient
  scale : d.scale ≤ Decimal.maxScale

namespace Decimal

theorem le_ofDigitChars (digits : List Char) (start : Nat) : start ≤ Nat.ofDigitChars 10 digits start := by
  induction digits generalizing start with
  | nil => exact Nat.le_refl _
  | cons c rest ih =>
    rw [Nat.ofDigitChars_cons]
    exact le_trans (by omega) (ih _)

/-- Digits are read one by one as long as there is room for them. -/
theorem readDigits?_digits (negative seen point : Bool) {digits : List Char}
    (all : ∀ c ∈ digits, c.isDigit = true) {coefficient scale : Nat} (rest : List Char)
    (fits : Nat.ofDigitChars 10 digits coefficient ≤ maxCoefficient)
    (room : point = true → scale + digits.length ≤ maxScale) (whole : point = false → scale = 0) :
    readDigits? negative seen point coefficient scale (digits ++ rest) =
      readDigits? negative (seen || !digits.isEmpty) point (Nat.ofDigitChars 10 digits coefficient)
        (scale + if point then digits.length else 0) rest := by
  induction digits generalizing seen coefficient scale with
  | nil => cases point <;> simp
  | cons c digits ih =>
    obtain ⟨digit, others⟩ := List.forall_mem_cons.mp all
    change Nat.ofDigitChars 10 digits (10 * coefficient + (c.toNat - 48)) ≤ maxCoefficient at fits
    have small := (le_ofDigitChars digits _).trans fits
    have free : (point && decide (maxScale ≤ scale)) = false := by
      cases point with
      | false => rfl
      | true =>
        have := room rfl
        simp only [List.length_cons] at this
        simp
        omega
    rw [List.cons_append, readDigits?, free, if_neg Bool.false_ne_true, if_pos digit]
    dsimp only
    rw [if_neg (Nat.not_lt.mpr small)]
    rw [ih true others fits (fun pointed => ?_) (fun pointed => by simp [pointed])]
    · change readDigits? _ (true || _) _ (Nat.ofDigitChars 10 (c :: digits) coefficient) _ _ =
        readDigits? _ (seen || true) _ _ _ _
      rw [Bool.true_or, Bool.or_true]
      congr 1
      cases point with
      | true =>
        simp only [if_true, List.length_cons]
        omega
      | false => exact (whole rfl).symm
    · have long := room pointed
      simp only [pointed, if_true, List.length_cons] at long ⊢
      omega

/-- Digits that begin a text are no sign. -/
theorem ofPlain?_digits {digits : List Char} (all : ∀ c ∈ digits, c.isDigit = true) (some : digits ≠ [])
    (rest : List Char) : ofPlain? (digits ++ rest) = readDigits? false false false 0 0 (digits ++ rest) := by
  cases digits with
  | nil => exact absurd rfl some
  | cons c cs =>
    have digit := all c List.mem_cons_self
    unfold ofPlain?
    split
    · rename_i minus
      cases minus
      cases digit
    · rename_i plus
      cases plus
      cases digit
    · rfl

/-- The positional text of a coefficient: digits, and as many behind a point as the scale says. -/
theorem positional_digits (coefficient scale : Nat) :
    ∃ whole fraction : List Char, (∀ c ∈ whole ++ fraction, c.isDigit = true) ∧ whole ≠ [] ∧
      Nat.ofDigitChars 10 (whole ++ fraction) 0 = coefficient ∧ fraction.length = scale ∧
      (Numeric.positional coefficient (-(scale : Int))).toList =
        whole ++ if scale = 0 then [] else '.' :: fraction := by
  cases scale with
  | zero =>
    refine ⟨Nat.toDigits 10 coefficient, [], ?_, Nat.toDigits_ne_nil, ?_, rfl, ?_⟩
    · rw [List.append_nil]
      exact fun c => Nat.isDigit_of_mem_toDigits (by decide) (by decide)
    · rw [List.append_nil, Nat.ofDigitChars_ten_toDigits]
    · rw [show (-((0 : Nat) : Int)) = Int.ofNat 0 from rfl, Numeric.positional, ite_self,
        String.toList_ofList]
      simp
  | succ e =>
    -- zeros before the coefficient leave at least one digit before the point
    have digits := Text.padded_digits (e + 2) coefficient
    have value : Nat.ofDigitChars 10 (Text.padded (e + 2) coefficient).toList 0 = coefficient :=
      Text.digitsValue_padded _ _
    have text : (Numeric.positional coefficient (-((e + 1 : Nat) : Int))).toList =
        let ds := (Text.padded (e + 2) coefficient).toList
        ds.take (ds.length - (e + 1)) ++ '.' :: ds.drop (ds.length - (e + 1)) := by
      rw [show (-((e + 1 : Nat) : Int)) = Int.negSucc e from rfl, Numeric.positional,
        String.toList_ofList, Text.padded_toList]
    have long : e + 2 ≤ (Text.padded (e + 2) coefficient).toList.length := by
      rw [Text.padded_toList, List.length_append, List.length_replicate]
      omega
    generalize (Text.padded (e + 2) coefficient).toList = ds at digits value text long
    refine ⟨ds.take (ds.length - (e + 1)), ds.drop (ds.length - (e + 1)), ?_, ?_, ?_, ?_, text⟩
    · rwa [List.take_append_drop]
    · intro none
      have := congrArg List.length none
      simp only [List.length_take, List.length_nil] at this
      omega
    · rwa [List.take_append_drop]
    · rw [List.length_drop]
      omega

/-- The positional text of a coefficient is read back. -/
theorem readDigits?_positional (negative : Bool) {d : Decimal} (range : d.InRange) :
    readDigits? negative false false 0 0 (Numeric.positional d.coefficient (-(d.scale : Int))).toList =
      some (signed negative d.coefficient d.scale) := by
  obtain ⟨whole, fraction, all, start, value, length, text⟩ := positional_digits d.coefficient d.scale
  obtain ⟨digits, digits'⟩ := List.forall_mem_append.mp all
  rw [Nat.ofDigitChars_append] at value
  have fits : Nat.ofDigitChars 10 fraction (Nat.ofDigitChars 10 whole 0) ≤ maxCoefficient :=
    value.trans_le range.coefficient
  have seen : (false || !whole.isEmpty) = true := by simpa using start
  rw [text, readDigits?_digits _ _ false digits _ ((le_ofDigitChars _ _).trans fits) nofun fun _ => rfl, seen,
    if_neg Bool.false_ne_true]
  split
  · rename_i none
    obtain rfl : fraction = [] := List.eq_nil_of_length_eq_zero (length.trans none)
    rw [none, ← value]
    rfl
  · change readDigits? negative true true (Nat.ofDigitChars 10 whole 0) 0 fraction = _
    have read := readDigits?_digits negative true true digits' [] fits
      (fun _ => (Nat.zero_add _).trans_le (length.trans_le range.scale)) nofun
    rw [List.append_nil, value, length] at read
    rw [read, Bool.true_or, if_pos rfl, Nat.zero_add]
    rfl

/-- The text of a decimal is read back, but for the sign of zero. -/
theorem ofText?_text {d : Decimal} (range : d.InRange) :
    ofText? d.text = some (signed d.negative d.coefficient d.scale) := by
  suffices plain : ofPlain? d.text.toList = some (signed d.negative d.coefficient d.scale) by
    rw [ofText?, plain]
    rfl
  have read := readDigits?_positional d.negative range
  cases sign : d.negative with
  | true =>
    have text : d.text.toList = '-' :: (Numeric.positional d.coefficient (-(d.scale : Int))).toList := by
      simp [Decimal.text, sign]
    rw [text, ← sign]
    rw [sign] at read ⊢
    exact read
  | false =>
    have text : d.text.toList = (Numeric.positional d.coefficient (-(d.scale : Int))).toList := by
      simp [Decimal.text, sign]
    obtain ⟨whole, fraction, all, start, _, _, shape⟩ := positional_digits d.coefficient d.scale
    rw [text, shape, ofPlain?_digits (List.forall_mem_append.mp all).1 start, ← shape]
    rw [sign] at read
    exact read

/-- Zero is zero with and without a sign. -/
theorem signed_beq (d : Decimal) : (signed d.negative d.coefficient d.scale == d) = true := by
  change (shifted (signed d.negative d.coefficient d.scale) (max d.scale d.scale) ==
    shifted d (max d.scale d.scale)) = true
  by_cases zero : d.coefficient = 0 <;> simp [signed, shifted, zero]

end Decimal

end SqlTree

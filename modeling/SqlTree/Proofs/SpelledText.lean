import SqlTree.Proofs.Leads
import SqlTree.Proofs.Placed
import SqlTree.Proofs.QuotedText
import SqlTree.Proofs.Valid

namespace SqlTree

open Scan

/-- What a passed check says. -/
theorem Checked.passed {condition : Bool} {cause : Invalid}
    (checked : (if condition then .ok () else .error cause : Checked Unit) = .ok ()) : condition = true := by
  cases condition with
  | true => rfl
  | false => cases checked

/-- The characters that mean something to a scan. -/
def Mark.special : List Char :=
  ['\x27', '\x22', '(', '[', ')', ']', ';', '-', '*', '/']

/-- A class of characters is plain when it holds none of the special ones. -/
theorem Mark.ofChar_of_class {p : Char → Bool} (apart : Mark.special.all (fun d => !p d) = true) {c : Char}
    (member : p c = true) : Mark.ofChar c = .plain := by
  have other : ∀ d ∈ Mark.special, c ≠ d := by
    rintro d special rfl
    have outside := List.all_eq_true.mp apart c special
    rw [member] at outside
    cases outside
  simp only [Mark.special, List.forall_mem_cons] at other
  simp [Mark.ofChar, Quote.char, other]

namespace Text

theorem isPlain_iff {text : String} :
    isPlain text = true ↔ ∀ c ∈ text.toList, Mark.ofChar c = .plain := by
  simp [isPlain]

theorem isPlain_of_class {p : Char → Bool} (apart : Mark.special.all (fun d => !p d) = true)
    {text : String} (all : text.toList.all p = true) : isPlain text = true :=
  isPlain_iff.mpr fun c member => Mark.ofChar_of_class apart (List.all_eq_true.mp all c member)

theorem isPlain_append {first second : String} (left : isPlain first = true)
    (right : isPlain second = true) : isPlain (first ++ second) = true := by
  rw [isPlain, String.toList_append, List.all_append, Bool.and_eq_true]
  exact ⟨left, right⟩

theorem isPlain_ofList {cs : List Char} (all : ∀ c ∈ cs, Mark.ofChar c = .plain) :
    isPlain (String.ofList cs) = true :=
  isPlain_iff.mpr fun c member => all c (by simpa using member)

theorem plain_of_mem_toDigits {n : Nat} {c : Char} (member : c ∈ Nat.toDigits 10 n) :
    Mark.ofChar c = .plain := by
  have digit := Nat.isDigit_of_mem_toDigits (b := 10) (by decide) (by decide) member
  exact Mark.ofChar_of_class rfl digit

theorem isPlain_number (n : Nat) : isPlain (toString n) = true :=
  isPlain_iff.mpr fun _ member => plain_of_mem_toDigits (by simpa using member)

theorem isPlain_padded (width n : Nat) : isPlain (padded width n) = true := by
  refine isPlain_ofList fun c member => ?_
  obtain zero | digit := List.mem_append.mp member
  · rw [List.eq_of_mem_replicate zero]
    rfl
  · exact plain_of_mem_toDigits digit

/-- No delimiter of the sort stands in the text. -/
def isFree (q : Quote) (text : String) : Bool :=
  text.toList.all fun c => c ≠ q.char

theorem isFree_append {q : Quote} {first second : String} (left : isFree q first = true)
    (right : isFree q second = true) : isFree q (first ++ second) = true := by
  rw [isFree, String.toList_append, List.all_append, Bool.and_eq_true]
  exact ⟨left, right⟩

theorem isFree_plain {q : Quote} {text : String} (plain : isPlain text = true) : isFree q text = true := by
  refine List.all_eq_true.mpr fun c member => decide_eq_true ?_
  rintro rfl
  have mark := isPlain_iff.mp plain _ member
  rw [Scan.ofChar_quote] at mark
  cases mark

theorem isFree_padded {q : Quote} (width n : Nat) : isFree q (padded width n) = true :=
  isFree_plain (isPlain_padded width n)

end Text

theorem Numeric.positional_plain (digits : Nat) (exponent : Int) :
    Text.isPlain (Numeric.positional digits exponent) = true := by
  have zero : ∀ count, ∀ c ∈ List.replicate count '0', Mark.ofChar c = .plain := by
    intro count c member
    rw [List.eq_of_mem_replicate member]
    rfl
  cases exponent with
  | ofNat e =>
    refine Text.isPlain_ofList fun c member => ?_
    obtain digit | added := List.mem_append.mp member
    · exact Text.plain_of_mem_toDigits digit
    · exact zero _ c added
  | negSucc e =>
    have filled : ∀ c ∈ List.replicate (e + 1 + 1 - (Nat.toDigits 10 digits).length) '0' ++
        Nat.toDigits 10 digits, Mark.ofChar c = .plain := by
      intro c member
      obtain added | digit := List.mem_append.mp member
      · exact zero _ c added
      · exact Text.plain_of_mem_toDigits digit
    refine Text.isPlain_ofList fun c member => ?_
    obtain whole | point | fraction : c ∈ _ ∨ c = '.' ∨ c ∈ _ := by
      simpa only [List.mem_append, List.mem_cons] using member
    · exact filled c (List.mem_of_mem_take whole)
    · rw [point]
      rfl
    · exact filled c (List.mem_of_mem_drop fraction)

theorem Date.text_free (q : Quote) (d : Date) : Text.isFree q d.text = true := by
  have year : Text.isFree q (Date.yearText d.year) = true := by
    unfold Date.yearText
    split
    · exact Text.isFree_append (by cases q <;> rfl) (Text.isFree_padded ..)
    · split
      · exact Text.isFree_append (by cases q <;> rfl) (Text.isFree_padded ..)
      · exact Text.isFree_padded ..
  have hyphen : Text.isFree q "-" = true := by cases q <;> rfl
  have month := Text.isFree_append (Text.isFree_append year hyphen) (Text.isFree_padded 2 d.month)
  exact Text.isFree_append (Text.isFree_append month hyphen) (Text.isFree_padded 2 d.day)

theorem Time.text_plain (t : Time) : Text.isPlain t.text = true := by
  have fraction : Text.isPlain (Time.fractionText t.nano) = true := by
    unfold Time.fractionText
    repeat' split
    · rfl
    all_goals exact Text.isPlain_append rfl (Text.isPlain_padded ..)
  have colon : Text.isPlain ":" = true := rfl
  have minute := Text.isPlain_append (Text.isPlain_append (Text.isPlain_padded 2 t.hour) colon)
    (Text.isPlain_padded 2 t.minute)
  exact Text.isPlain_append (Text.isPlain_append (Text.isPlain_append minute colon)
    (Text.isPlain_padded 2 t.second)) fraction

namespace Text.Leads

variable {P Q : Scan → Prop} {text : String} {opened : List Bracket}

/-- Plain text may also stand behind anything that is not quoted; if it is empty, that still stands
there. -/
theorem plainBehind (all : Text.isPlain text = true) : Text.Leads text (Loose opened) (Loose opened) := by
  cases cut : text.toList with
  | nil =>
    intro s start
    exact ⟨s, by rw [cut]; rfl, start⟩
  | cons c rest =>
    have first : Mark.ofChar c = .plain := by
      refine Text.isPlain_iff.mp all c ?_
      rw [cut]
      exact List.mem_cons_self ..
    have begins : Text.isSoft text = true := by
      simp only [Text.isSoft, cut, first]
      rfl
    exact (soft begins (plain all)).loosen

theorem minusSign : Text.Leads "-" (Clear opened) (Dash opened) := by
  rintro s rfl
  exact ⟨_, rfl, rfl⟩

theorem minus (all : Text.isPlain text = true) : Text.Leads ("-" ++ text) (Clear opened) (Loose opened) :=
  append (minusSign.mono (fun _ h => h) fun _ h => h.loose) (plainBehind all)

theorem joined {separator : String} {parts : List String} (weaker : ∀ s, P s → Q s)
    (each : ∀ part ∈ parts, Text.Leads part P Q) (between : Text.Leads separator Q P) :
    Text.Leads (Text.join separator parts) P Q := by
  induction parts with
  | nil => exact empty.mono (fun _ h => h) weaker
  | cons part rest ih =>
    cases rest with
    | nil => exact each part (List.mem_cons_self ..)
    | cons next rest =>
      have others := ih fun other member => each other (List.mem_cons_of_mem _ member)
      exact ((each part (List.mem_cons_self ..)).append between).append others

/-- A word right before a quoted token in which there is nothing to double. -/
theorem tagged {word : String} (enters : ∀ o, Scan.run ⟨.clear, o⟩ word.toList = some ⟨.inside .single, o⟩)
    (free : Text.isFree .single text = true) :
    Text.Leads (word ++ text ++ "\'") (Clear opened) (Loose opened) := by
  rintro s rfl
  have other : Quote.single.char ∉ text.toList := by
    intro member
    simpa using List.all_eq_true.mp free _ member
  refine ⟨⟨.after .single, opened⟩, ?_, rfl, rfl⟩
  rw [String.toList_append, String.toList_append]
  exact Scan.run_trans (Scan.run_trans (enters opened) (Scan.run_inside .single opened other)) rfl

end Text.Leads

theorem Literal.Valid.bits_plain {bits : String} (valid : (Literal.bitString bits).Valid) :
    Text.isPlain bits = true :=
  Text.isPlain_of_class (p := fun c => c == '0' || c == '1') rfl (Checked.passed valid)

theorem Literal.Valid.digits_plain {digits : String} (valid : (Literal.hexString digits).Valid) :
    Text.isPlain digits = true :=
  Text.isPlain_of_class rfl (Checked.passed valid)

theorem TypeBase.keyword_plain {word : String} (checked : (TypeBase.keyword word).check = .ok ()) :
    Text.isPlain word = true := by
  simp only [TypeBase.check] at checked
  split at checked
  · cases checked
  · exact Text.isPlain_of_class (p := fun c => Text.isWordChar c || c == ' ') rfl (Checked.passed checked)

theorem Text.all_isWordChar {word : String} (isWord : Text.isWord word = true) :
    word.toList.all Text.isWordChar = true := by
  unfold Text.isWord at isWord
  split at isWord
  · cases isWord
  · rename_i c rest cut
    rw [Bool.and_eq_true] at isWord
    rw [cut, List.all_cons, Bool.and_eq_true]
    refine ⟨?_, isWord.2⟩
    have first := isWord.1
    simp only [Text.isWordChar, Char.isAlphanum, Bool.or_eq_true] at first ⊢
    tauto

theorem Text.isPlain_word {word : String} (isWord : Text.isWord word = true) : Text.isPlain word = true :=
  Text.isPlain_of_class rfl (Text.all_isWordChar isWord)

theorem Param.Valid.name_plain {p : Param} (valid : p.Valid) {name : String} (given : p.name? = some name) :
    Text.isPlain name = true := by
  obtain ⟨kind, value⟩ := p
  cases kind with
  | named word =>
    cases given
    exact Text.isPlain_word (Checked.passed valid.1)
  | anonymous => cases given
  | ordinal => cases given

theorem Writer.generatedName_plain (w : Writer) (index : Nat) :
    Text.isPlain (w.generatedName index) = true := by
  have among : ∀ name ∈ (List.range' index (w.reserved.length + w.named.length + 1)).map
      (fun n => "p" ++ toString n), Text.isPlain name = true := by
    intro name member
    obtain ⟨n, _, rfl⟩ := List.mem_map.mp member
    exact Text.isPlain_append rfl (Text.isPlain_number n)
  unfold Writer.generatedName
  generalize List.map _ _ = candidates at among
  dsimp only
  cases found : candidates.find? fun name => !w.isTaken name with
  | none => rfl
  | some name => exact among name (List.mem_of_find?_eq_some found)

/-- The notation of a bound parameter is plain, whatever was bound. -/
theorem Param.ShownAs.plain {p : Param} (valid : p.Valid) {w : Writer} {shown : String}
    (showing : p.ShownAs w shown) : Text.isPlain shown = true := by
  cases showing with
  | mark => rfl
  | number index => exact Text.isPlain_append rfl (Text.isPlain_number index)
  | given name same => exact Text.isPlain_append rfl (valid.name_plain same)
  | generated index => exact Text.isPlain_append rfl (w.generatedName_plain index)

theorem Param.Valid.kind_plain {p : Param} (valid : p.Valid) : Text.isPlain p.kind.text = true := by
  obtain ⟨kind, value⟩ := p
  cases kind with
  | anonymous => exact (rfl : Text.isPlain "?" = true)
  | named name => exact Text.isPlain_append rfl (valid.name_plain rfl)
  | ordinal index => exact Text.isPlain_append rfl (Text.isPlain_number index.toNat)

namespace Text.Leads

variable {opened : List Bracket}

theorem integer (n : Int) : Text.Leads (toString n) (Clear opened) (Loose opened) := by
  cases n with
  | ofNat n => exact (plain (Text.isPlain_number n)).loosen
  | negSucc n => exact minus (Text.isPlain_number (n + 1))

theorem decimal (d : Decimal) : Text.Leads d.text (Clear opened) (Loose opened) := by
  have digits := Numeric.positional_plain d.coefficient (-(d.scale : Int))
  unfold Decimal.text
  split
  · exact minus digits
  · exact (append empty (plain digits)).loosen

theorem boolean (style : BooleanStyle) (b : Bool) :
    Text.Leads (style.text b) (Clear opened) (Loose opened) := by
  refine (plain ?_).loosen
  cases style <;> cases b <;> rfl

/-- The text of a literal, but for the notations that a dialect has to have. -/
theorem literal (style : Style) {value : Literal} (valid : value.Valid)
    (escape : value.construct? ≠ some .escapeString) (dollar : value.construct? ≠ some .dollarString) :
    Text.Leads (style.literalText value) (Clear opened) (Loose opened) := by
  cases value with
  | null => exact (plain (rfl : Text.isPlain "NULL" = true)).loosen
  | boolean b => exact boolean style.booleans b
  | integer n => exact integer n.toInt
  | decimal d => exact decimal d
  | string s => exact quoted .single s
  | date d => exact tagged (fun _ => rfl) (d.text_free .single)
  | time t => exact tagged (fun _ => rfl) (Text.isFree_plain t.text_plain)
  | timestamp t =>
    have space : Text.isFree .single " " = true := rfl
    have date := Text.isFree_append (t.date.text_free .single) space
    exact tagged (fun _ => rfl) (Text.isFree_append date (Text.isFree_plain t.time.text_plain))
  | interval s => exact append (plain rfl) (quoted .single s)
  | bitString bits => exact tagged (fun _ => rfl) (Text.isFree_plain valid.bits_plain)
  | hexString digits => exact tagged (fun _ => rfl) (Text.isFree_plain valid.digits_plain)
  | escapeString s => exact absurd rfl escape
  | dollarString s => exact absurd rfl dollar

theorem identifier (i : Identifier) :
    Text.Leads (Quoter.standard.quoteIfNeeded i) (Clear opened) (Loose opened) := by
  unfold Quoter.quoteIfNeeded
  split
  · exact quoted .double i.value
  · rename_i bare
    exact (plain (Text.isPlain_of_class rfl (Identifier.word_of_bare bare))).loosen

theorem qualified (parts : List Identifier) :
    Text.Leads (Quoter.standard.qualify parts) (Clear opened) (Loose opened) := by
  refine joined (fun _ h => h.loose) (fun part member => ?_) (ofBreak rfl)
  obtain ⟨i, _, rfl⟩ := List.mem_map.mp member
  exact identifier i

end Text.Leads

end SqlTree

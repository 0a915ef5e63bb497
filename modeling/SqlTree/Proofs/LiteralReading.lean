import Mathlib.Data.List.ChainOfFn
import SqlTree.Proofs.Drawn
import SqlTree.Proofs.KeptValues
import SqlTree.Proofs.Lexemes
import SqlTree.Proofs.QuotedText
import SqlTree.Proofs.SpelledText

namespace SqlTree

/-- A literal is written as its text when values are not bound and the dialect has its notation. -/
theorem Expr.render_literal (value : Literal) {dialect : Dialect}
    (standard : dialect.toStyle.StandardRenderers) {options : RenderOptions} (inline : options.mode = .inline)
    (supported : ∀ c ∈ value.construct?, dialect.capabilities.supports c.feature = true) :
    ((Expr.literal value).render dialect options).result = .ok ⟨dialect.literalText value, []⟩ := by
  have document : (Expr.literal value).doc dialect.toStyle = dialect.literalDoc value := by
    rw [Tree.doc_node standard]
    exact Tree.doc_node standard (.literal value) .nil
  have adds : (dialect.literalDoc value).Adds ⟨dialect, options⟩ (dialect.literalText value) := by
    have silent : (Doc.ofOption value.construct? .require).Adds ⟨dialect, options⟩ "" := by
      cases needed : value.construct? with
      | none => exact .empty
      | some c => exact .require (supported c needed)
    exact silent.behind .text
  exact Tree.render_adds inline (document ▸ adds)

/-- The body of a dollar string and the text behind it. The delimiter is a word between dollar signs, and it
closes the string where it first stands again. -/
def DollarString.read : List Char → Option (List Char × List Char)
  | '$' :: rest =>
    match rest.dropWhile Text.isWordChar with
    | '$' :: inside => inside.dropInfix? ('$' :: rest.takeWhile Text.isWordChar ++ ['$'])
    | _ => none
  | _ => none

/-- The text behind an escape string, from the text behind its opening quote. A backslash takes the next
character with it, a doubled quote is a quote, and a lone quote closes the string. -/
def Text.behindEscaped : List Char → Option (List Char)
  | [] => none
  | '\\' :: [] => none
  | '\\' :: _ :: rest => behindEscaped rest
  | '\x27' :: '\x27' :: rest => behindEscaped rest
  | '\x27' :: rest => some rest
  | _ :: rest => behindEscaped rest

/-- The text behind an escape string. -/
def Text.behindEscapeString : List Char → Option (List Char)
  | 'E' :: '\x27' :: rest => behindEscaped rest
  | _ => none

/-- Whether every backslash that is not taken by the one before it takes a character other than a quote. -/
def Text.escapesHold : List Char → Bool
  | [] => true
  | '\\' :: [] => false
  | '\\' :: c :: rest => c != '\x27' && escapesHold rest
  | _ :: rest => escapesHold rest

namespace Text

theorem occursIn_iff {part cs : List Char} : occursIn part cs = true ↔ part <:+: cs := by
  induction cs with
  | nil => simp [occursIn]
  | cons c rest ih => rw [occursIn, Bool.or_eq_true, List.isPrefixOf_iff_prefix, ih, List.infix_cons_iff]

/-- A character that does not stand in a word ends the word that stands before it. -/
theorem append_cons_eq {c : Char} {w x y : List Char} (fresh : c ∉ w) (same : x ++ c :: y = w ++ [c]) :
    x = w ∧ y = [] := by
  rcases List.append_eq_append_iff.mp same with ⟨z, rfl, rest⟩ | ⟨z, rfl, rest⟩
  · cases z with
    | nil => simpa using rest
    | cons d z =>
      obtain ⟨rfl, _⟩ := List.cons.inj rest
      exact absurd (List.mem_append_right x (List.mem_cons_self ..)) fresh
  · have short := congrArg List.length rest
    cases z with
    | nil => simpa using rest.symm
    | cons d z => simp at short

/-- A delimiter is first found behind a body that does not hold it, unless the body ends with all of the
delimiter but its last character: no shorter end of the body can be the beginning of a delimiter. -/
theorem dropInfix?_delimiter {w body : List Char} (word : '$' ∉ w) (free : ¬ '$' :: w ++ ['$'] <:+: body)
    (following : List Char) :
    (body ++ ('$' :: w ++ ['$']) ++ following).dropInfix? ('$' :: w ++ ['$']) = some (body, following) ↔
      ¬ '$' :: w <:+ body := by
  rw [List.dropInfix?_eq_some_iff]
  constructor
  · rintro ⟨_, first⟩ ⟨front, rfl⟩
    have early := first front ('$' :: w ++ ['$']) (w ++ ['$'] ++ following) (by simp) (by simp)
    rw [List.length_append, List.length_cons] at early
    omega
  · intro apart
    refine ⟨⟨_, rfl, by simp⟩, fun front part rest whole same => ?_⟩
    obtain rfl : part = '$' :: w ++ ['$'] := by simpa using same
    by_contra early
    have aligned : body ++ ('$' :: w ++ ['$'] ++ following) = front ++ ('$' :: w ++ ['$'] ++ rest) := by
      simpa only [List.append_assoc] using whole
    -- the delimiter found begins inside the body, at `overlap`
    obtain ⟨overlap, rfl, tail⟩ : ∃ overlap, body = front ++ overlap ∧
        '$' :: w ++ ['$'] ++ rest = overlap ++ ('$' :: w ++ ['$'] ++ following) := by
      rcases List.append_eq_append_iff.mp aligned with ⟨overlap, rfl, _⟩ | found
      · rw [List.length_append] at early
        omega
      · exact found
    -- and ends behind it, so `overlap` is a beginning of the delimiter and the rest of it is one too
    rcases List.append_eq_append_iff.mp tail with ⟨more, rfl, _⟩ | ⟨more, cut, closing⟩
    · exact free ⟨front, more, by simp⟩
    cases overlap with
    | nil => simp at early
    | cons d x =>
      obtain ⟨rfl, rest⟩ := List.cons.inj cut
      have ending : w ++ ['$'] = x ++ more := rest
      cases more with
      | nil => exact free ⟨front, [], by simp [ending]⟩
      | cons c y =>
        obtain ⟨rfl, _⟩ := List.cons.inj closing
        obtain ⟨rfl, _⟩ := append_cons_eq word ending.symm
        exact apart ⟨front, rfl⟩

end Text

namespace DollarString

theorem toList_delimiter (s : DollarString) : s.delimiter.toList = '$' :: (s.tag.getD "").toList ++ ['$'] := by
  simp [delimiter]

/-- The tag of a valid string is made of word characters, and the body does not hold the delimiter. -/
theorem Valid.parts {s : DollarString} (valid : s.Valid) :
    (∀ c ∈ (s.tag.getD "").toList, Text.isWordChar c = true) ∧
      ¬ '$' :: (s.tag.getD "").toList ++ ['$'] <:+: s.body.toList := by
  have free : ¬Text.occursIn s.delimiter.toList s.body.toList = true →
      ¬ '$' :: (s.tag.getD "").toList ++ ['$'] <:+: s.body.toList := by
    rw [Text.occursIn_iff, s.toList_delimiter]
    exact id
  unfold Valid check at valid
  split at valid
  · rename_i tag tagged
    split at valid
    · cases valid
    · rename_i word
      split at valid
      · cases valid
      · rename_i absent
        refine ⟨List.all_eq_true.mp ?_, free absent⟩
        rw [tagged]
        exact Text.all_isWordChar (by simpa using word)
  · rename_i tagged
    split at valid
    · cases valid
    · rename_i absent
      rw [tagged] at free ⊢
      exact ⟨nofun, free absent⟩

/-- The text of a valid string reads back as its body and what follows it, unless the body ends with a
dollar sign and the tag. -/
theorem Valid.read_text {s : DollarString} (valid : s.Valid) (following : List Char) :
    read ((s.delimiter ++ s.body ++ s.delimiter).toList ++ following) = some (s.body.toList, following) ↔
      ¬ '$' :: (s.tag.getD "").toList <:+ s.body.toList := by
  obtain ⟨word, free⟩ := valid.parts
  have fresh : '$' ∉ (s.tag.getD "").toList := fun member => absurd (word '$' member) (by decide)
  rw [← Text.dropInfix?_delimiter fresh free following, String.toList_append, String.toList_append,
    s.toList_delimiter]
  generalize (s.tag.getD "").toList = w at word
  have opened : ∀ inside, read ('$' :: w ++ ['$'] ++ inside) = inside.dropInfix? ('$' :: w ++ ['$']) := by
    intro inside
    have tag : (w ++ '$' :: inside).takeWhile Text.isWordChar = w := by
      rw [List.takeWhile_append_of_pos word, List.takeWhile_cons_of_neg (by decide), List.append_nil]
    have behind : (w ++ '$' :: inside).dropWhile Text.isWordChar = '$' :: inside := by
      rw [List.dropWhile_append_of_pos word, List.dropWhile_cons_of_neg (by decide)]
    rw [List.cons_append, List.cons_append, List.append_assoc, List.singleton_append, read, behind, tag]
    rfl
  rw [List.append_assoc _ _ following, List.append_assoc _ s.body.toList, opened, ← List.append_assoc]

end DollarString

namespace Text

theorem length_behindEscaped {cs rest : List Char} (read : behindEscaped cs = some rest) :
    rest.length < cs.length := by
  fun_induction behindEscaped cs with
  | case1 | case2 => cases read
  | case3 _ _ ih => 
    have := ih read
    simp only [List.length_cons]
    omega
  | case4 _ ih =>
    have := ih read
    simp only [List.length_cons]
    omega
  | case5 =>
    cases read
    exact Nat.lt_succ_self _
  | case6 _ _ _ _ _ _ ih =>
    exact Nat.lt_succ_of_lt (ih read)

theorem behindEscaped_close {rest : List Char} (other : rest.head? ≠ some '\x27') :
    behindEscaped ('\x27' :: rest) = some rest := by
  cases rest with
  | nil => rfl
  | cons c rest => simp_all [behindEscaped]

theorem behindEscaped_plain {c : Char} (escape : c ≠ '\\') (quote : c ≠ '\x27') (rest : List Char) :
    behindEscaped (c :: rest) = behindEscaped rest := by
  simp_all [behindEscaped]

/-- Behind a quote that is still open a string does not end where it was written to: the quote pairs with
those that follow, until it closes the string too early or takes the last one. -/
theorem behindEscaped_pending (t following : List Char) :
    behindEscaped ('\x27' :: (doubled '\x27' t ++ '\x27' :: following)) ≠ some following := by
  induction t with
  | nil =>
    intro read
    have short : following.length < following.length := length_behindEscaped read
    omega
  | cons c t ih =>
    rw [doubled]
    split
    · rename_i quote
      subst quote
      exact ih
    · rename_i quote
      rw [behindEscaped_close (by simpa using quote)]
      intro same
      have := congrArg List.length (Option.some.inj same)
      simp at this
      omega

/-- A text written between quotes, with its quotes doubled, ends at its closing quote when all its escapes
hold, and does not end there otherwise. -/
theorem behindEscaped_doubled (t : List Char) {following : List Char}
    (other : following.head? ≠ some '\x27') :
    behindEscaped (doubled '\x27' t ++ '\x27' :: following) = some following ↔ escapesHold t = true := by
  fun_induction escapesHold t with
  | case1 => simp [doubled, behindEscaped_close other]
  | case2 =>
    refine ⟨fun read => ?_, fun held => by cases held⟩
    have short : following.length < following.length := length_behindEscaped read
    omega
  | case3 c rest ih =>
    have escape : doubled '\x27' ('\\' :: c :: rest) = '\\' :: doubled '\x27' (c :: rest) := rfl
    rw [escape, doubled]
    split
    · rename_i quote
      subst quote
      simpa [behindEscaped] using behindEscaped_pending rest following
    · rename_i quote
      simpa [behindEscaped, quote] using ih
  | case4 c rest first second ih =>
    have escape : c ≠ '\\' := by
      rintro rfl
      cases rest with
      | nil => exact first rfl rfl
      | cons d rest => exact second d rest rfl rfl
    rw [doubled]
    split
    · rename_i quote
      subst quote
      exact ih
    · rename_i quote
      rw [List.cons_append, behindEscaped_plain escape quote]
      exact ih

end Text

/-- String literals are read back exactly. What reads as a text is the written form of that text in front of
anything but a quote, and nothing else, so two texts are never written alike. Every dialect writes its string
literals so, and its interval literals behind a keyword. -/
theorem Text.quoteString_reads_back (t : String) :
    (∀ cs following : List Char, readString cs = some (t, following) ↔
        cs = (quoteString t).toList ++ following ∧ following.head? ≠ some '\x27') ∧
      (∀ other, quoteString other = quoteString t → other = t) ∧
      ∀ {dialect : Dialect}, dialect.toStyle.StandardRenderers →
        ∀ {options : RenderOptions}, options.mode = .inline →
          ((Expr.literal (.string t)).render dialect options).result = .ok ⟨quoteString t, []⟩ ∧
          ((Expr.literal (.interval t)).render dialect options).result =
            .ok ⟨"INTERVAL " ++ quoteString t, []⟩ := by
  refine ⟨fun _ _ => readString_eq_some_iff, fun _ same => quoteString_injective same, ?_⟩
  intro dialect standard options inline
  exact ⟨Expr.render_literal (.string t) standard inline nofun,
    Expr.render_literal (.interval t) standard inline nofun⟩

/-- Quotes at both ends and one in the middle, in front of a word. -/
theorem Text.quoteString_reads_back_quotes :
    readString ("'''it''s'''".toList ++ " AS t".toList) = some ("'it's'", " AS t".toList) ∧
      ((Expr.literal (.string "'it's'")).render .standard .inline).result = .ok ⟨"'''it''s'''", []⟩ := by
  have standard : Dialect.standard.toStyle.StandardRenderers := fun _ _ => rfl
  have inline : RenderOptions.inline.mode = .inline := rfl
  have written : quoteString "'it's'" = "'''it''s'''" := by decide
  obtain ⟨reads, _, renders⟩ := Text.quoteString_reads_back "'it's'"
  rw [← written]
  exact ⟨(reads _ _).mpr ⟨rfl, by decide⟩, (renders standard inline).1⟩

/-- A dollar string is written between its delimiters, and reads back as its body with whatever text follows,
unless the body ends with a dollar sign and the tag: then the first dollar sign of the closing delimiter ends
the string already. -/
theorem Expr.dollarString_reads_back {s : DollarString} (valid : s.Valid) {dialect : Dialect}
    (standard : dialect.toStyle.StandardRenderers)
    (supported : dialect.capabilities.supports Construct.dollarString.feature = true)
    {options : RenderOptions} (inline : options.mode = .inline) :
    ∃ sql, ((Expr.literal (.dollarString s)).render dialect options).result = .ok ⟨sql, []⟩ ∧
      sql = s.delimiter ++ s.body ++ s.delimiter ∧
      ∀ following, DollarString.read (sql.toList ++ following) = some (s.body.toList, following) ↔
        ¬ '$' :: (s.tag.getD "").toList <:+ s.body.toList := by
  have rendered := Expr.render_literal (.dollarString s) standard inline fun c needed => by
    cases needed
    exact supported
  exact ⟨_, rendered, rfl, valid.read_text⟩

/-- The standard dialect with all constructs. -/
def Dialect.complete : Dialect :=
  { Dialect.standard with capabilities := .all }

/-- A dollar sign at the end of the body does no harm when there is a tag. -/
theorem Expr.dollarString_reads_back_tagged :
    let s : DollarString := ⟨some "q", "5$"⟩
    s.Valid ∧ ((Expr.literal (.dollarString s)).render .complete .inline).result = .ok ⟨"$q$5$$q$", []⟩ ∧
      DollarString.read ("$q$5$$q$".toList ++ "$q$".toList) = some ("5$".toList, "$q$".toList) := by
  intro s
  have valid : (⟨some "q", "5$"⟩ : DollarString).check = .ok () := by decide
  have inline : RenderOptions.inline.mode = .inline := rfl
  have standard : Dialect.complete.toStyle.StandardRenderers := fun _ _ => rfl
  have rendered : ((Expr.literal (.dollarString s)).render .complete .inline).result =
      .ok ⟨"$q$5$$q$", []⟩ := by rfl
  obtain ⟨sql, again, _, reads⟩ := Expr.dollarString_reads_back valid standard rfl inline
  obtain rfl : "$q$5$$q$" = sql := by
    rw [rendered] at again
    exact congrArg SqlText.sql (Except.ok.inj again)
  exact ⟨valid, rendered, (reads "$q$".toList).mpr (by decide)⟩

/-- The body `a$` without a tag is accepted, and read back as `a` with a dollar sign behind the string. -/
theorem Expr.dollarString_ends_early :
    let s : DollarString := ⟨none, "a$"⟩
    DollarString.make s.tag s.body = .ok s ∧
      ((Expr.literal (.dollarString s)).render .complete .inline).result = .ok ⟨"$$a$$$", []⟩ ∧
      DollarString.read "$$a$$$".toList = some ("a".toList, "$".toList) := by
  exact ⟨by rfl, by rfl, by decide⟩

/-- An escape string is written with its quotes doubled, and ends at its last character, whatever text but a
quote follows, exactly when its escapes hold: no backslash takes the first quote of a doubled one or the
closing quote. -/
theorem Expr.escapeString_ends (t : String) {dialect : Dialect}
    (standard : dialect.toStyle.StandardRenderers)
    (supported : dialect.capabilities.supports Construct.escapeString.feature = true)
    {options : RenderOptions} (inline : options.mode = .inline) :
    ∃ sql, ((Expr.literal (.escapeString t)).render dialect options).result = .ok ⟨sql, []⟩ ∧
      sql = "E" ++ Text.quoteString t ∧
      ∀ following, following.head? ≠ some '\x27' →
        (Text.behindEscapeString (sql.toList ++ following) = some following ↔
          Text.escapesHold t.toList = true) := by
  have rendered := Expr.render_literal (.escapeString t) standard inline fun c needed => by
    cases needed
    exact supported
  refine ⟨_, rendered, rfl, fun following other => ?_⟩
  have text : (dialect.literalText (.escapeString t)).toList ++ following =
      'E' :: '\x27' :: (Text.doubled '\x27' t.toList ++ '\x27' :: following) := by
    simp [Style.literalText, Text.quoteString, Text.quoted]
  rw [text]
  exact Text.behindEscaped_doubled t.toList other

/-- A doubled quote, and a backslash that takes a letter with it. -/
theorem Expr.escapeString_ends_paired :
    ((Expr.literal (.escapeString "it's \\n")).render .complete .inline).result =
        .ok ⟨"E'it''s \\n'", []⟩ ∧
      Text.behindEscapeString ("E'it''s \\n'".toList ++ " FROM t".toList) = some " FROM t".toList := by
  have inline : RenderOptions.inline.mode = .inline := rfl
  have standard : Dialect.complete.toStyle.StandardRenderers := fun _ _ => rfl
  have rendered : ((Expr.literal (.escapeString "it's \\n")).render .complete .inline).result =
      .ok ⟨"E'it''s \\n'", []⟩ := by rfl
  obtain ⟨sql, again, _, ends⟩ := Expr.escapeString_ends "it's \\n" standard rfl inline
  obtain rfl : "E'it''s \\n'" = sql := by
    rw [rendered] at again
    exact congrArg SqlText.sql (Except.ok.inj again)
  exact ⟨rendered, (ends " FROM t".toList (by decide)).mpr (by decide)⟩

/-- A quote behind a backslash closes the string, and the rest of its text is read as statements. -/
theorem Expr.escapeString_breaks_out :
    ((Expr.literal (.escapeString "\\'; DROP TABLE t; --")).render .complete .inline).result =
        .ok ⟨"E'\\''; DROP TABLE t; --'", []⟩ ∧
      Text.behindEscapeString "E'\\''; DROP TABLE t; --'".toList = some "; DROP TABLE t; --'".toList := by
  exact ⟨by rfl, by decide⟩

end SqlTree

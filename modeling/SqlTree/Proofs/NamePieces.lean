import SqlTree.Proofs.Valid

namespace SqlTree

namespace Text

/-- The pieces between separators are those of the library. -/
theorem splitAt_eq_splitOn (sep : Char) (cs : List Char) : splitAt sep cs = cs.splitOn sep := by
  induction cs with
  | nil => rw [splitAt, List.splitOn_nil]
  | cons c rest ih =>
    rw [splitAt, ih, List.splitOn_cons_eq_if_modifyHead]
    by_cases same : c = sep
    · simp only [same, if_true, beq_self_eq_true]
    · have other : (c == sep) = false := beq_eq_false_iff_ne.mpr same
      rw [if_neg same, other]
      have some : rest.splitOn sep ≠ [] := List.splitOn_ne_nil sep rest
      cases cut : rest.splitOn sep with
      | nil => exact absurd cut some
      | cons piece pieces => rfl

/-- Joining texts puts their characters between separators. -/
theorem toList_join (sep : String) (pieces : List String) :
    (join sep pieces).toList = sep.toList.intercalate (pieces.map String.toList) := by
  induction pieces with
  | nil => rfl
  | cons s rest ih =>
    cases rest with
    | nil => simp [join, List.intercalate]
    | cons t others =>
      have joined : (join sep (s :: t :: others)).toList =
          s.toList ++ (sep.toList ++ (join sep (t :: others)).toList) := by
        simp only [join, String.toList_append, List.append_assoc]
      rw [joined, ih]
      simp [List.intercalate]

end Text

namespace Identifier

/-- Text with a character other than white space is the value of an unquoted identifier. -/
theorem make_of_solid {value : String} (solid : ∃ c ∈ value.toList, Text.isWhiteSpace c = false) :
    make value = .ok ⟨value, .none⟩ := by
  obtain ⟨c, member, visible⟩ := solid
  have shown : Text.isBlank value = false := by
    rw [Text.isBlank, List.all_eq_false]
    exact ⟨c, member, by rw [visible]; decide⟩
  rw [make, styled, shown]
  rfl

theorem make_of_blank {value : String} (blank : ∀ c ∈ value.toList, Text.isWhiteSpace c = true) :
    make value = .error .blankIdentifier := by
  have hidden : Text.isBlank value = true := List.all_eq_true.mpr blank
  rw [make, styled, hidden]
  rfl

/-- What is not blank holds more than white space. -/
theorem Valid.solid {i : Identifier} (valid : i.Valid) : ∃ c ∈ i.value.toList, Text.isWhiteSpace c = false := by
  have shown : Text.isBlank i.value = false := by
    by_contra blank
    rw [Bool.not_eq_false] at blank
    rw [Identifier.Valid, check, blank] at valid
    cases valid
  obtain ⟨c, member, visible⟩ := List.all_eq_false.mp shown
  exact ⟨c, member, by simpa using visible⟩

end Identifier

namespace QualifiedName

/-- The parts that pieces of text become. -/
def unquoted (pieces : List (List Char)) : List Identifier :=
  pieces.map fun piece => ⟨String.ofList piece, .none⟩

theorem mapM_of_solid {pieces : List (List Char)}
    (solid : ∀ piece ∈ pieces, ∃ c ∈ piece, Text.isWhiteSpace c = false) :
    pieces.mapM (fun piece => Identifier.make (String.ofList piece)) = .ok (unquoted pieces) := by
  induction pieces with
  | nil => rfl
  | cons piece rest ih =>
    obtain ⟨first, others⟩ := List.forall_mem_cons.mp solid
    have made : Identifier.make (String.ofList piece) = .ok ⟨String.ofList piece, .none⟩ :=
      Identifier.make_of_solid (by rwa [String.toList_ofList])
    rw [List.mapM_cons, made, ih others]
    rfl

/-- The first piece that is blank stops the rest. -/
theorem mapM_of_blank {pieces : List (List Char)} {piece : List Char} (member : piece ∈ pieces)
    (blank : ∀ c ∈ piece, Text.isWhiteSpace c = true) :
    pieces.mapM (fun piece => Identifier.make (String.ofList piece)) = .error .blankIdentifier := by
  induction pieces with
  | nil => cases member
  | cons first rest ih =>
    rw [List.mapM_cons]
    by_cases visible : ∃ c ∈ first, Text.isWhiteSpace c = false
    · -- the blank piece is further on
      have other : piece ≠ first := by
        rintro rfl
        obtain ⟨c, within, shown⟩ := visible
        rw [blank c within] at shown
        cases shown
      have later : piece ∈ rest := (List.mem_cons.mp member).resolve_left other
      have made : Identifier.make (String.ofList first) = .ok ⟨String.ofList first, .none⟩ :=
        Identifier.make_of_solid (by rwa [String.toList_ofList])
      rw [made, ih later]
      rfl
    · have hidden : ∀ c ∈ (String.ofList first).toList, Text.isWhiteSpace c = true := by
        intro c within
        rw [String.toList_ofList] at within
        by_contra shown
        exact visible ⟨c, within, by simpa using shown⟩
      rw [Identifier.make_of_blank hidden]
      rfl

variable {text : String}

/-- Text whose pieces are not blank spells a name. -/
theorem ofDotted_of_solid (solid : ∀ piece ∈ text.toList.splitOn '.', ∃ c ∈ piece, Text.isWhiteSpace c = false) :
    ofDotted text = .ok ⟨unquoted (text.toList.splitOn '.')⟩ := by
  have some : (unquoted (text.toList.splitOn '.')).isEmpty = false := by
    have pieces : text.toList.splitOn '.' ≠ [] := List.splitOn_ne_nil '.' text.toList
    simp [unquoted, pieces]
  have parts := mapM_of_solid solid
  unfold ofDotted
  rw [Text.splitAt_eq_splitOn, parts]
  change make (unquoted _) = _
  rw [make, some]
  rfl

theorem ofDotted_of_blank {piece : List Char} (member : piece ∈ text.toList.splitOn '.')
    (blank : ∀ c ∈ piece, Text.isWhiteSpace c = true) : ofDotted text = .error .blankIdentifier := by
  have stopped := mapM_of_blank member blank
  unfold ofDotted
  rw [Text.splitAt_eq_splitOn, stopped]
  rfl

/-- A name of unquoted pieces shows them with dots between them. -/
theorem toList_text_unquoted (pieces : List (List Char)) :
    (QualifiedName.mk (unquoted pieces)).text.toList = ['.'].intercalate pieces := by
  have values : ((unquoted pieces).map (·.value)).map String.toList = pieces := by
    simp [unquoted, Function.comp_def]
  have dot : ".".toList = ['.'] := by decide
  rw [QualifiedName.text, Text.toList_join, values, dot]

/-- A name of unquoted parts is made of the pieces that its parts are. -/
theorem unquoted_values {parts : List Identifier} (bare : ∀ i ∈ parts, i.style = .none) :
    unquoted (parts.map fun i => i.value.toList) = parts := by
  induction parts with
  | nil => rfl
  | cons i rest ih =>
    obtain ⟨first, others⟩ := List.forall_mem_cons.mp bare
    obtain ⟨value, style⟩ := i
    obtain rfl : style = .none := first
    have same : unquoted (rest.map fun i => i.value.toList) = rest := ih others
    simpa [unquoted] using same

/-- Dotted text and names are inverse to each other. Text spells a name exactly when no piece between its dots
is blank, the empty piece being blank; the name shows that text, and none of its parts is quoted. A name whose
parts are not quoted and have no dots in them is spelled by the text that it shows. -/
theorem ofDotted_inverse_text :
    (∀ text : String,
      ((∃ n, ofDotted text = .ok n) ↔
        ∀ piece ∈ text.toList.splitOn '.', ∃ c ∈ piece, Text.isWhiteSpace c = false) ∧
      ∀ n, ofDotted text = .ok n → n.text = text ∧ ∀ i ∈ n.parts, i.style = .none) ∧
    ∀ n : QualifiedName, n.Valid → (∀ i ∈ n.parts, i.style = .none ∧ '.' ∉ i.value.toList) →
      ofDotted n.text = .ok n := by
  have solid : ∀ {text : String} {n : QualifiedName}, ofDotted text = .ok n →
      ∀ piece ∈ text.toList.splitOn '.', ∃ c ∈ piece, Text.isWhiteSpace c = false := by
    intro text n spelled piece member
    by_contra hidden
    have blank : ∀ c ∈ piece, Text.isWhiteSpace c = true := fun c within => by
      by_contra shown
      exact hidden ⟨c, within, by simpa using shown⟩
    rw [ofDotted_of_blank member blank] at spelled
    cases spelled
  refine ⟨fun text => ⟨⟨fun ⟨n, spelled⟩ => solid spelled, fun visible => ⟨_, ofDotted_of_solid visible⟩⟩, ?_⟩, ?_⟩
  · intro n spelled
    have made : (.ok n : Checked QualifiedName) = .ok ⟨unquoted (text.toList.splitOn '.')⟩ :=
      spelled.symm.trans (ofDotted_of_solid (solid spelled))
    cases made
    refine ⟨String.toList_inj.mp ?_, ?_⟩
    · rw [toList_text_unquoted, List.intercalate_splitOn]
    · intro i member
      obtain ⟨piece, _, rfl⟩ := List.mem_map.mp member
      rfl
  · intro n valid plain
    let pieces := n.parts.map fun i => i.value.toList
    have same : unquoted pieces = n.parts := unquoted_values fun i member => (plain i member).1
    have shown : n.text.toList = ['.'].intercalate pieces := by
      rw [← toList_text_unquoted, same]
    have some : pieces ≠ [] := by simpa [pieces] using valid.1
    have dotless : ∀ piece ∈ pieces, '.' ∉ piece := by
      intro piece member
      obtain ⟨i, part, rfl⟩ := List.mem_map.mp member
      exact (plain i part).2
    have cut : n.text.toList.splitOn '.' = pieces := by
      rw [shown, List.splitOn_intercalate '.' dotless some]
    have visible : ∀ piece ∈ n.text.toList.splitOn '.', ∃ c ∈ piece, Text.isWhiteSpace c = false := by
      intro piece member
      rw [cut] at member
      obtain ⟨i, part, rfl⟩ := List.mem_map.mp member
      exact (valid.2 i part).solid
    rw [ofDotted_of_solid visible, cut, same]

/-- A part with spaces in it and one that begins with white space. -/
theorem ofDotted_inverse_text_spaced :
    let n : QualifiedName := ⟨[⟨"my table", .none⟩, ⟨"\tx", .none⟩]⟩
    (n.Valid ∧ ∀ i ∈ n.parts, i.style = .none ∧ '.' ∉ i.value.toList) ∧
      ofDotted "my table.\tx" = .ok n ∧ n.text = "my table.\tx" ∧ ofDotted n.text = .ok n := by
  intro n
  have valid : n.Valid := by
    refine ⟨List.cons_ne_nil _ _, ?_⟩
    simp only [n, List.forall_mem_cons]
    exact ⟨rfl, rfl, nofun⟩
  have plain : ∀ i ∈ n.parts, i.style = .none ∧ '.' ∉ i.value.toList := by decide
  have spelled := ofDotted_inverse_text.2 n valid plain
  have shown : n.text = "my table.\tx" := by decide
  rw [shown] at spelled
  exact ⟨⟨valid, plain⟩, spelled, (ofDotted_inverse_text.1 _).2 n spelled |>.1, by rw [shown]; exact spelled⟩

end QualifiedName

end SqlTree

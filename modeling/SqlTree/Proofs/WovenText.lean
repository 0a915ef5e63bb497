import SqlTree.Proofs.Fragments

namespace SqlTree

/-- Between two pages, the text of a document has been added with given places between its fragments. -/
structure Doc.Woven (places : List String) (d : Doc) (w v : Writer) : Prop where
  length : places.length = d.params.length
  unsigned : ∀ place ∈ places, Text.isUnsigned place = true
  text : v.text = w.text ++ Text.woven (d.fragments w.layout) places
  layout : v.layout = w.layout

namespace Doc.Woven

variable {places : List String} {d : Doc} {w v : Writer}

theorem length_fragments (woven : d.Woven places w v) (l : Layout) :
    (d.fragments l).length = places.length + 1 := by
  rw [Doc.length_fragments, woven.length]

/-- A document without parameters is one fragment. -/
theorem plain {s : String} (none : d.params = []) (fragments : d.fragments w.layout = [s])
    (text : v.text = w.text ++ s) (layout : v.layout = w.layout) : d.Woven [] w v where
  length := (congrArg List.length none).symm
  unsigned := nofun
  text := by
    rw [fragments]
    exact text
  layout := layout

theorem silent (none : d.params = []) (fragments : d.fragments w.layout = [""]) (text : v.text = w.text)
    (layout : v.layout = w.layout) : d.Woven [] w v :=
  plain none fragments (text.trans String.append_empty.symm) layout

theorem append {first second : Doc} {u : Writer} {others : List String}
    (left : first.Woven places w u) (right : second.Woven others u v) :
    (first ++ second).Woven (places ++ others) w v where
  length := by rw [List.length_append, left.length, right.length, Doc.params_append, List.length_append]
  unsigned := List.forall_mem_append.mpr ⟨left.unsigned, right.unsigned⟩
  text := by
    have some : second.fragments w.layout ≠ [] := by
      intro none
      have counted := right.length_fragments w.layout
      rw [none] at counted
      cases counted
    rw [right.text, left.text, left.layout, String.append_assoc]
    exact congrArg _ (Text.woven_welded (left.length_fragments _) some).symm
  layout := right.layout.trans left.layout

theorem block {u : Writer} (body : d.Woven places w.openBlock u) :
    (Doc.block d).Woven places w (u.closeBlock w.pretty) where
  length := body.length
  unsigned := body.unsigned
  text := by
    have inner := body.layout.trans w.layout_openBlock
    rw [Writer.text_closeBlock inner, body.text, w.layout_openBlock, w.text_openBlock, Doc.fragments,
      Text.woven_framed _ _ (body.length_fragments _)]
    simp only [String.append_assoc]
  layout := Writer.layout_closeBlock (body.layout.trans w.layout_openBlock)

theorem afterMinus {u : Writer} (body : d.Woven places { w with text := "" } u) :
    (Doc.afterMinus d).Woven places w { u with text := w.text ++ Doc.guardMinus u.text } where
  length := body.length
  unsigned := body.unsigned
  text := by
    rw [Doc.fragments, Text.woven_guarded (body.length_fragments _) body.unsigned]
    exact congrArg (fun s => w.text ++ Doc.guardMinus s) (body.text.trans String.empty_append)
  layout := body.layout

end Doc.Woven

/-- The placeholder of an entry at a given position. An entry without a value is shown by its name in
every notation. -/
def BindParam.shown (placeholder : Placeholder) (index : Nat) (entry : BindParam) : String :=
  match placeholder, entry.value with
  | .positional, some _ => "?"
  | .ordinal, some _ => "$" ++ toString index
  | _, _ => ":" ++ entry.name.getD ""

theorem BindParam.shown_unsigned (placeholder : Placeholder) (index : Nat) (entry : BindParam) :
    Text.isUnsigned (entry.shown placeholder index) = true := by
  have leads : ∀ (c : Char) (s : String), c ≠ '-' → Text.isUnsigned (String.ofList [c] ++ s) = true := by
    intro c s other
    simp [Text.isUnsigned, other]
  unfold BindParam.shown
  split
  · rfl
  · exact leads '$' _ (by decide)
  · exact leads ':' _ (by decide)

/-- The entry of a parameter: besides its value it has a name wherever the name is what is shown, and
without a value the name is the caller's. -/
structure Param.EnteredAs (placeholder : Placeholder) (p : Param) (entry : BindParam) : Prop extends
    p.BoundAs placeholder entry where
  kept : p.value = none → entry.name = p.name?
  named : p.value = none ∨ placeholder = .named → entry.name.isSome = true

/-- Binding a parameter shows its entry at the next position. -/
theorem Context.bindParam_shown {ctx : Context} {p : Param} {w v : Writer}
    (bound : (ctx.bindParam p).outcome w = (.ok (), v)) :
    ∃ entry, p.EnteredAs ctx.options.placeholder entry ∧ v.params = w.params ++ [entry] ∧
      v.text = w.text ++ entry.shown ctx.options.placeholder (w.params.length + 1) ∧
      v.layout = w.layout := by
  cases carried : p.value with
  | none =>
    unfold Context.bindParam at bound
    rw [carried] at bound
    cases kind : p.kind with
    | named name =>
      have given : p.name? = some name := by rw [Param.name?, kind]
      simp only [kind] at bound
      obtain ⟨book, rfl⟩ := Context.named_ok ⟨some name, none⟩ bound
      refine ⟨⟨some name, none⟩, ⟨⟨carried.symm, fun _ => given.symm⟩, fun _ => given.symm, fun _ => rfl⟩,
        rfl, ?_, rfl⟩
      cases ctx.options.placeholder <;> rfl
    | ordinal index =>
      simp only [kind] at bound
      cases bound
    | anonymous =>
      simp only [kind] at bound
      cases bound
  | some value =>
    have solid : p.value ≠ none := by simp [carried]
    rw [ctx.outcome_bindParam carried] at bound
    cases choice : ctx.options.placeholder with
    | positional =>
      simp only [choice] at bound
      cases bound
      exact ⟨⟨p.name?, some value⟩, ⟨⟨carried.symm, fun _ => rfl⟩, fun _ => rfl, by simp [solid]⟩, rfl,
        rfl, rfl⟩
    | ordinal =>
      simp only [choice] at bound
      cases bound
      exact ⟨⟨p.name?, some value⟩, ⟨⟨carried.symm, fun _ => rfl⟩, fun _ => rfl, by simp [solid]⟩, rfl,
        rfl, rfl⟩
    | named =>
      simp only [choice] at bound
      obtain ⟨book, rfl⟩ := Context.named_ok ⟨some _, some value⟩ bound
      exact ⟨_, ⟨⟨carried.symm, fun unnamed => absurd rfl unnamed⟩, fun empty => absurd empty solid,
        fun _ => rfl⟩, rfl, rfl, rfl⟩

/-- The placeholders of entries that stand behind a number of others. -/
def BindParam.shownAfter (placeholder : Placeholder) (count : Nat) (entries : List BindParam) :
    List String :=
  entries.mapIdx fun i entry => entry.shown placeholder (count + i + 1)

theorem BindParam.shownAfter_append (placeholder : Placeholder) (count : Nat)
    (before after : List BindParam) :
    shownAfter placeholder count (before ++ after) =
      shownAfter placeholder count before ++ shownAfter placeholder (count + before.length) after := by
  unfold shownAfter
  rw [List.mapIdx_append]
  refine congrArg _ (congrArg (List.mapIdx · after) ?_)
  funext i entry
  congr 1
  omega

/-- A document has been written with the placeholders of new entries between its fragments. -/
structure Doc.Bound (placeholder : Placeholder) (d : Doc) (w v : Writer) (entries : List BindParam) :
    Prop where
  params : v.params = w.params ++ entries
  entered : List.Forall₂ (Param.EnteredAs placeholder) d.params entries
  woven : d.Woven (BindParam.shownAfter placeholder w.params.length entries) w v

/-- A document without parameters makes no entries. -/
theorem Doc.Bound.none {placeholder : Placeholder} {d : Doc} {w v : Writer} (plain : d.params = [])
    (same : v.params = w.params) (woven : d.Woven [] w v) : d.Bound placeholder w v [] where
  params := same.trans (List.append_nil _).symm
  entered := by
    rw [plain]
    exact .nil
  woven := woven

/-- When values are bound, a document is written as its fragments and placeholders. -/
theorem Doc.Writes.bound {ctx : Context} (bind : ctx.options.mode = .bind) {d : Doc} {w v : Writer}
    (writes : d.Writes ctx w v) : ∃ entries, d.Bound ctx.options.placeholder w v entries := by
  induction d generalizing w v with
  | empty =>
    obtain rfl := Doc.Writes.empty_iff.mp writes
    exact ⟨[], .none rfl rfl (.silent rfl rfl rfl rfl)⟩
  | text s =>
    obtain rfl := Doc.Writes.text_iff.mp writes
    exact ⟨[], .none rfl rfl (.plain rfl rfl rfl rfl)⟩
  | gap =>
    obtain rfl := Doc.Writes.gap_iff.mp writes
    rw [w.separator_eq]
    exact ⟨[], .none rfl rfl (.plain rfl rfl rfl rfl)⟩
  | append first second left right =>
    obtain ⟨u, atFirst, atSecond⟩ := Doc.Writes.append_iff.mp writes
    obtain ⟨entries, atLeft⟩ := left atFirst
    obtain ⟨others, atRight⟩ := right atSecond
    refine ⟨entries ++ others, ?_, List.rel_append atLeft.entered atRight.entered, ?_⟩
    · rw [atRight.params, atLeft.params, List.append_assoc]
    -- the entries of the second document are numbered from those of the first on
    · rw [BindParam.shownAfter_append, ← List.length_append, ← atLeft.params]
      exact atLeft.woven.append atRight.woven
  | block body ih =>
    obtain ⟨u, atBody, rfl⟩ := Doc.Writes.block_iff.mp writes
    obtain ⟨entries, bound⟩ := ih atBody
    refine ⟨entries, by simpa using bound.params, bound.entered, ?_⟩
    have woven := bound.woven
    rw [Writer.params_openBlock] at woven
    exact woven.block
  | require construct =>
    obtain ⟨_, rfl⟩ := Doc.Writes.require_iff.mp writes
    exact ⟨[], .none rfl rfl (.silent rfl rfl rfl rfl)⟩
  | fail error => exact absurd writes Doc.Writes.not_fail
  | note event =>
    obtain rfl := Doc.Writes.note_iff.mp writes
    exact ⟨[], .none rfl rfl (.silent rfl rfl rfl rfl)⟩
  | param p inline =>
    obtain ⟨entry, entered, grown, text, layout⟩ :=
      Context.bindParam_shown ((Doc.Writes.param_bind_iff bind).mp writes)
    refine ⟨[entry], grown, .cons entered .nil, rfl, ?_, ?_, layout⟩
    · intro place member
      obtain rfl := List.mem_singleton.mp member
      exact entry.shown_unsigned _ _
    · rw [text]
      simp [Doc.fragments, BindParam.shownAfter, Text.woven]
  | afterMinus body ih =>
    obtain ⟨u, atBody, rfl⟩ := Doc.Writes.afterMinus_iff.mp writes
    obtain ⟨entries, bound⟩ := ih atBody
    exact ⟨entries, bound.params, bound.entered, bound.woven.afterMinus⟩

end SqlTree

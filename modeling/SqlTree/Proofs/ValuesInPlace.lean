import SqlTree.Proofs.Demands
import SqlTree.Proofs.NumberedLooks
import SqlTree.Proofs.WovenText
import SqlTree.Proofs.WrittenParams

namespace SqlTree

/-- A parameter in a text that binds nothing: its value, or its own notation. -/
def Style.paramText (style : Style) (p : Param) : String :=
  match p.value with
  | some value => style.literalText value
  | none => p.kind.text

/-- The document of a parameter in a text that binds nothing, in a style with the standard renderers. -/
def Style.inlineDoc (style : Style) (p : Param) : Doc :=
  match p.value with
  | some value => style.literalDoc value
  | none => .text p.kind.text

theorem Style.StandardRenderers.paramDoc {style : Style} (standard : style.StandardRenderers) (p : Param) :
    style.paramDoc p = .param p (style.inlineDoc p) := by
  obtain ⟨kind, value⟩ := p
  cases value with
  | none => rfl
  | some value => exact congrArg _ (standard (.literal value) (style.literalDoc value))

namespace Doc

/-- All parameters of a document are written in the standard way when nothing is bound. -/
def Tidy (style : Style) : Doc → Prop
  | .append first second => first.Tidy style ∧ second.Tidy style
  | .block body | .afterMinus body => body.Tidy style
  | .param p inline => inline = style.inlineDoc p
  | _ => True

theorem tidy_of_plain {style : Style} {d : Doc} (plain : d.params = []) : d.Tidy style := by
  induction d with
  | empty | text | gap | require | fail | note => exact trivial
  | append first second left right =>
    obtain ⟨none, none'⟩ := List.append_eq_nil_iff.mp plain
    exact ⟨left none, right none'⟩
  | block body ih | afterMinus body ih => exact ih plain
  | param => cases plain

theorem Tidy.congruence (style : Style) : Congruence fun a b => a.Tidy style → b.Tidy style where
  refl := fun _ => id
  append := fun left right tidy => ⟨left tidy.1, right tidy.2⟩
  block := id
  afterMinus := id

end Doc

/-- The style in which nothing below a node is written. -/
def Style.mute (style : Style) : Style :=
  { style with renderer := fun _ _ => .empty }

theorem Tree.doc_mute (style : Style) {k : Kind} (t : Tree k) : t.doc style.mute = .empty := by
  cases t
  rfl

theorem Drawn.params_mute (style : Style) {k : Kind} (t : Tree k) :
    Drawn.params ⟨t, t.doc style.mute⟩ = [] := by
  rw [t.doc_mute]
  cases k <;> rfl

theorem Forest.params_mute (style : Style) {slots : List Slot} (f : Forest slots) :
    Fill.params slots (f.drawn style.mute) = [] := by
  cases f with
  | nil => rfl
  | one t rest => exact List.append_eq_nil_iff.mpr ⟨Drawn.params_mute style t, rest.params_mute style⟩
  | absent rest | done rest | noArm rest => exact rest.params_mute style
  | present t rest =>
    rw [Forest.drawn_present, Fill.params, Option.toList_some, List.flatMap_singleton,
      Drawn.params_mute, rest.params_mute]
    rfl
  | more t rest =>
    rw [Forest.drawn_more, Fill.params, List.flatMap_cons, Drawn.params_mute]
    exact rest.params_mute style
  | arm c t rest =>
    rw [Forest.drawn_arm, Fill.params, List.flatMap_cons, Drawn.params_mute, Drawn.params_mute]
    exact rest.params_mute style

theorem Tree.looks_self {k : Kind} (t : Tree k) : t.Looks t := by
  cases k
  case expr => exact ⟨rfl, rfl⟩
  case predicate | query | limitOffset => exact rfl
  all_goals exact trivial

/-- What a node adds to the documents below it has no parameters, so only those of its own are left. -/
theorem Tree.Valid.tidy_doc {style : Style} (standard : style.StandardRenderers) {k : Kind} {t : Tree k}
    (valid : t.Valid) : (t.doc style).Tidy style := by
  refine Tree.Valid.induction_below (Q := fun t => (t.doc style).Tidy style)
    (fun {k} form below _ shape inside => ?_) valid
  rw [Tree.doc_node standard]
  by_cases leaf : k = .param
  · subst leaf
    cases form with
    | param p =>
      change (style.paramDoc p).Tidy style
      rw [standard.paramDoc p]
      rfl
  -- with everything below it muted, a document without parameters is left
  · have checked := (form.check_eq_of_shape (below.drawn_shape style.mute)).trans shape
    have plain := Render.params_standard style form _ checked leaf
    rw [below.params_mute style, List.append_nil, ite_self] at plain
    have others : Fill.Rel (Drawn.Related fun a b => a.Tidy style → b.Tidy style) form.slots
        (below.drawn style.mute) (below.drawn style) :=
      Forest.rel_drawn (inside.imp fun {_ t} tidy => ⟨t.looks_self, fun _ => tidy⟩)
    exact (Doc.Tidy.congruence style).standard style form others (Doc.tidy_of_plain plain)

/-- The second document is the first with parameters for some of its literals. Of a parameter in both, the
value is the same, and unless nothing can be bound to it, it is written alike when nothing is bound. -/
inductive Doc.Fills (style : Style) : Doc → Doc → Prop
  | empty : Doc.Fills style .empty .empty
  | text (s : String) : Doc.Fills style (.text s) (.text s)
  | gap : Doc.Fills style .gap .gap
  | append {a b c d : Doc} : Doc.Fills style a b → Doc.Fills style c d →
      Doc.Fills style (.append a c) (.append b d)
  | block {a b : Doc} : Doc.Fills style a b → Doc.Fills style (.block a) (.block b)
  | require (construct : Construct) : Doc.Fills style (.require construct) (.require construct)
  | fail (error : Error) : Doc.Fills style (.fail error) (.fail error)
  | note (event : Event) : Doc.Fills style (.note event) (.note event)
  | literal {value : Literal} {p : Param} (inline : Doc) : p.value = some value →
      Doc.Fills style (style.literalDoc value) (.param p inline)
  | param {p q : Param} {a b : Doc} : p.value = q.value → (q.valueless? = none → a = b) →
      Doc.Fills style (.param p a) (.param q b)
  | afterMinus {a b : Doc} : Doc.Fills style a b → Doc.Fills style (.afterMinus a) (.afterMinus b)

theorem Doc.Fills.refl (style : Style) (d : Doc) : Doc.Fills style d d := by
  induction d with
  | empty => exact .empty
  | text s => exact .text s
  | gap => exact .gap
  | append a b left right => exact .append left right
  | block body ih => exact .block ih
  | require c => exact .require c
  | fail e => exact .fail e
  | note e => exact .note e
  | param p inline _ => exact .param rfl fun _ => rfl
  | afterMinus body ih => exact .afterMinus ih

theorem Doc.Fills.numbers {style : Style} (standard : style.StandardRenderers) :
    Doc.Congruence.Numbers style (Doc.Fills style) where
  refl := Doc.Fills.refl style
  append := .append
  block := .block
  afterMinus := .afterMinus
  literal := fun carried => .literal _ carried
  anonymous := fun index value => by
    rw [standard.paramDoc, standard.paramDoc]
    refine .param rfl fun bindable => ?_
    cases value with
    | none => cases bindable
    | some value => rfl

namespace Doc.Fills

variable {style : Style} {a b : Doc}

/-- What is demanded of a text with bound values, if all parameters can be bound, is demanded of the text
with values in place. -/
theorem demands (fills : Doc.Fills style a b) (bindable : ∀ q ∈ b.params, q.valueless? = none) :
    b.demands .bind ⊆ a.demands .inline := by
  induction fills with
  | empty | text | gap | require | fail | note => exact List.Subset.refl _
  | append _ _ left right =>
    obtain ⟨first, second⟩ := List.forall_mem_append.mp bindable
    exact List.append_subset.mpr
      ⟨List.Subset.trans (left first) (List.subset_append_left ..),
        List.Subset.trans (right second) (List.subset_append_right ..)⟩
  | block _ ih | afterMinus _ ih => exact ih bindable
  | @literal _ q | @param _ q =>
    have none : q.valueless? = none := bindable q (List.mem_singleton_self q)
    simp [Doc.demands, none]

end Doc.Fills

/-- A document of a literal leaves its text. -/
theorem Style.literalDoc_writes {style : Style} {ctx : Context} {value : Literal} {w v : Writer}
    (writes : (style.literalDoc value).Writes ctx w v) : v = w.write (style.literalText value) := by
  obtain ⟨u, required, written⟩ := Doc.Writes.append_iff.mp writes
  obtain rfl := Doc.Writes.text_iff.mp written
  cases construct : value.construct? with
  | none =>
    rw [construct] at required
    rw [Doc.Writes.empty_iff.mp required]
  | some c =>
    rw [construct] at required
    rw [(Doc.Writes.require_iff.mp required).2]

theorem Style.inlineDoc_writes {style : Style} {ctx : Context} {p : Param} {w v : Writer}
    (writes : (style.inlineDoc p).Writes ctx w v) : v = w.write (style.paramText p) := by
  unfold Style.inlineDoc at writes
  unfold Style.paramText
  split at writes
  · exact Style.literalDoc_writes writes
  · exact Doc.Writes.text_iff.mp writes

/-- A parameter whose text has been written is one place between two empty fragments. -/
theorem Doc.Woven.place {p : Param} {inline : Doc} {w : Writer} {s : String}
    (unsigned : Text.isUnsigned s = true) : (Doc.param p inline).Woven [s] w (w.write s) where
  length := rfl
  unsigned := List.forall_mem_singleton.mpr unsigned
  text := by simp [Doc.fragments, Text.woven, Writer.write]
  layout := rfl

/-- A text with values in place is woven from the fragments of the document that binds them. -/
theorem Doc.Fills.woven {style : Style} {ctx : Context} (inline : ctx.options.mode ≠ .bind) {a b : Doc}
    (fills : Doc.Fills style a b) (tidy : b.Tidy style)
    (bindable : ∀ q ∈ b.params, q.valueless? = none)
    (unsigned : ∀ q ∈ b.params, Text.isUnsigned (style.paramText q) = true) {w v : Writer}
    (writes : a.Writes ctx w v) : b.Woven (b.params.map style.paramText) w v := by
  induction fills generalizing w v with
  | empty =>
    obtain rfl := Doc.Writes.empty_iff.mp writes
    exact .silent rfl rfl rfl rfl
  | text s =>
    obtain rfl := Doc.Writes.text_iff.mp writes
    exact .plain rfl rfl rfl rfl
  | gap =>
    obtain rfl := Doc.Writes.gap_iff.mp writes
    rw [w.separator_eq]
    exact .plain rfl rfl rfl rfl
  | append _ _ left right =>
    obtain ⟨u, atFirst, atSecond⟩ := Doc.Writes.append_iff.mp writes
    obtain ⟨bindable, bindable'⟩ := List.forall_mem_append.mp bindable
    obtain ⟨unsigned, unsigned'⟩ := List.forall_mem_append.mp unsigned
    have joined := (left tidy.1 bindable unsigned atFirst).append (right tidy.2 bindable' unsigned' atSecond)
    rwa [← List.map_append] at joined
  | block _ ih =>
    obtain ⟨u, atBody, rfl⟩ := Doc.Writes.block_iff.mp writes
    exact (ih tidy bindable unsigned atBody).block
  | require construct =>
    obtain ⟨_, rfl⟩ := Doc.Writes.require_iff.mp writes
    exact .silent rfl rfl rfl rfl
  | fail error => exact absurd writes Doc.Writes.not_fail
  | note event =>
    obtain rfl := Doc.Writes.note_iff.mp writes
    exact .silent rfl rfl rfl rfl
  | @literal value p _ carried =>
    have text : style.paramText p = style.literalText value := by rw [Style.paramText, carried]
    obtain rfl := Style.literalDoc_writes writes
    rw [← text]
    exact .place (unsigned p (List.mem_singleton_self p))
  | @param p q _ _ same alike =>
    have member : q ∈ [q] := List.mem_singleton_self q
    have written := (Doc.Writes.param_inline_iff inline).mp writes
    rw [alike (bindable q member), tidy] at written
    obtain rfl := Style.inlineDoc_writes written
    exact .place (unsigned q member)
  | afterMinus _ ih =>
    obtain ⟨u, atBody, rfl⟩ := Doc.Writes.afterMinus_iff.mp writes
    exact (ih tidy bindable unsigned atBody).afterMinus

end SqlTree

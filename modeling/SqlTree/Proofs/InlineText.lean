import SqlTree.Proofs.BoundOrder
import SqlTree.Proofs.Fragments

namespace SqlTree

/-- The text of a document with its values in it, or the error that stops it. -/
def Doc.inlined (dialect : Dialect) (l : Layout) : Doc → Except Error String
  | .empty | .note _ => .ok ""
  | .text s => .ok s
  | .gap => .ok l.separator
  | .append first second => do
    let s ← first.inlined dialect l
    let t ← second.inlined dialect l
    return s ++ t
  | .block body => do
    let s ← body.inlined dialect l.inner
    return l.opening ++ s ++ l.closing
  | .require construct =>
    if dialect.capabilities.supports construct.feature then .ok ""
    else .error (.unsupported construct dialect.name)
  | .fail error => .error error
  | .param _ inline => inline.inlined dialect l
  | .afterMinus body => do
    let s ← body.inlined dialect l
    return guardMinus s

section

variable {dialect : Dialect} {l : Layout}

theorem Doc.inlined_text (s : String) : (Doc.text s).inlined dialect l = .ok s :=
  rfl

theorem Doc.inlined_append (first second : Doc) :
    (first ++ second).inlined dialect l = (do
      let s ← first.inlined dialect l
      let t ← second.inlined dialect l
      return s ++ t) :=
  rfl

end

/-- From a page, a run stops with an error, or adds a text to the page and nothing else that is rendered. -/
inductive Outcome.Inlined (w : Writer) : Except Error String → Except Error Unit × Writer → Prop
  | stops (e : Error) (v : Writer) : Outcome.Inlined w (.error e) (.error e, v)
  | adds {s : String} {v : Writer} (text : v.text = w.text ++ s) (params : v.params = w.params)
      (layout : v.layout = w.layout) : Outcome.Inlined w (.ok s) (.ok (), v)

/-- A step that adds a text which depends on the layout only. -/
def Writing.Inlines (x : Writing Error Unit) (said : Layout → Except Error String) : Prop :=
  ∀ w : Writer, Outcome.Inlined w (said w.layout) (x.outcome w)

namespace Writing.Inlines

variable {x y : Writing Error Unit} {said said' : Layout → Except Error String}

theorem pure_unit : Writing.Inlines (pure ()) fun _ => .ok "" :=
  fun _ => .adds String.append_empty.symm rfl rfl

theorem throw (e : Error) : Writing.Inlines (throw e) fun _ => .error e :=
  fun w => .stops e w

theorem put (s : String) : Writing.Inlines (Writing.put s) fun _ => .ok s :=
  fun _ => .adds rfl rfl rfl

theorem note (event : Event) : Writing.Inlines (modify (·.note event)) fun _ => .ok "" :=
  fun _ => .adds String.append_empty.symm rfl rfl

theorem separator : Writing.Inlines (modify (·.separator)) fun l => .ok l.separator := by
  intro w
  rw [Writing.outcome_modify, w.separator_eq]
  exact .adds rfl rfl rfl

theorem bind (first : x.Inlines said) (second : y.Inlines said') :
    Writing.Inlines (x >>= fun _ => y) fun l => do
      let s ← said l
      let t ← said' l
      return s ++ t := by
  intro w
  have atFirst := first w
  rw [Writing.outcome_bind]
  beta_reduce
  generalize said w.layout = r, x.outcome w = o at atFirst
  cases atFirst with
  | stops e v => exact .stops e v
  | @adds s u text params layout =>
    have atSecond := second u
    rw [layout] at atSecond
    dsimp only [Bind.bind, Except.bind]
    generalize said' w.layout = r, y.outcome u = o at atSecond
    cases atSecond with
    | stops e v => exact .stops e v
    | adds text' params' layout' =>
      exact .adds (by rw [text', text, String.append_assoc]) (params'.trans params) (layout'.trans layout)

theorem nested (body : x.Inlines said) :
    Writing.Inlines (Writing.nested x) fun l => do
      let s ← said l.inner
      return l.opening ++ s ++ l.closing := by
  intro w
  have atBody := body w.openBlock
  rw [w.layout_openBlock] at atBody
  rw [Writing.outcome_nested]
  beta_reduce
  generalize said w.layout.inner = r, x.outcome w.openBlock = o at atBody
  cases atBody with
  | stops e v => exact .stops e _
  | @adds s u text params layout =>
    have inner := layout.trans w.layout_openBlock
    refine .adds ?_ ?_ (Writer.layout_closeBlock inner)
    · rw [Writer.text_closeBlock inner, text, w.text_openBlock]
      simp only [String.append_assoc]
    · rw [Writer.params_closeBlock, params, Writer.params_openBlock]

theorem guarded (body : x.Inlines said) :
    Writing.Inlines (Writing.captured Doc.guardMinus x) fun l => do
      let s ← said l
      return Doc.guardMinus s := by
  intro w
  have atBody : Outcome.Inlined _ (said w.layout) (x.outcome { w with text := "" }) := body { w with text := "" }
  rw [Writing.outcome_captured]
  beta_reduce
  generalize said w.layout = r, x.outcome { w with text := "" } = o at atBody
  cases atBody with
  | stops e v => exact .stops e _
  | adds text params layout =>
    refine .adds ?_ params layout
    rw [text, String.empty_append]

end Writing.Inlines

/-- Without binding, writing a document adds its text. -/
theorem Doc.write_inlined {ctx : Context} (inline : ctx.options.mode = .inline) (d : Doc) :
    (d.write ctx).Inlines fun l => d.inlined ctx.dialect l := by
  induction d with
  | empty => exact .pure_unit
  | text s => exact .put s
  | gap => exact .separator
  | append _ _ first second => exact .bind first second
  | block _ body => exact .nested body
  | require construct =>
    unfold Doc.write Doc.inlined
    split
    · exact .pure_unit
    · exact .throw _
  | fail error => exact .throw error
  | note event => exact .note event
  | param p _ body =>
    have unbound : ctx.options.mode ≠ .bind := by simp [inline]
    rw [Doc.write, if_neg unbound]
    exact body
  | afterMinus _ body => exact .guarded body

/-- The text of a node with its values in it. -/
def Tree.inlined {k : Kind} (t : Tree k) (dialect : Dialect) (pretty : Bool) : Except Error String :=
  (t.doc dialect.toStyle).inlined dialect ⟨pretty, 0⟩

/-- Without binding, a node is rendered as its text, with nothing bound. -/
theorem Tree.render_inlined {k : Kind} (t : Tree k) (dialect : Dialect) {options : RenderOptions}
    (inline : options.mode = .inline) :
    (t.render dialect options).result = (t.inlined dialect options.pretty).map fun s => ⟨s, []⟩ := by
  let ctx : Context := ⟨dialect, options⟩
  have unbound : ctx.options.mode = .inline := inline
  have written : Outcome.Inlined (ctx.page []) (t.inlined dialect options.pretty)
      (((t.doc dialect.toStyle).write ctx).outcome (ctx.page [])) := Doc.write_inlined unbound _ _
  rw [t.render_inline dialect inline, Tree.renderOn_result]
  generalize t.inlined dialect options.pretty = r, Writing.outcome _ (ctx.page []) = o at written
  cases written with
  | stops e v => rfl
  | @adds s v text params =>
    have said : v.text = s := text.trans String.empty_append
    have bound : v.params = [] := params
    change Except.ok (⟨v.text, v.params⟩ : SqlText) = _
    rw [said, bound]
    rfl

end SqlTree

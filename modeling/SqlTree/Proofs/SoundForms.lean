import SqlTree.Proofs.SoundQueries

namespace SqlTree

open Scan Render

variable {ctx : Context}

/-- Where the documents below a node are sound, its standard document is. -/
theorem Render.sound_standard (guarded : ctx.dialect.Guarded) {k : Kind} {form : Form k} (valid : form.Valid)
    {parts : Fill Drawn form.slots} (checked : form.check parts = .ok ())
    (below : Fill.All (Drawn.Sound ctx) form.slots parts) :
    (Render.standard ctx.dialect.toStyle form parts).Sound ctx := by
  cases form with
  | expr => exact below.1
  | literal value => exact guarded.literalDoc valid
  | column c => exact guarded.columnDoc c
  | param p => exact guarded.paramDoc valid
  | call name distinct =>
    obtain ⟨arguments, groups, filter, window, _⟩ := below
    exact sound_call guarded name distinct (sound_list arguments) fun _ => leads_callTail groups filter window
  | callStar name distinct =>
    obtain ⟨groups, filter, window, _⟩ := below
    have star : (Doc.text "*").Sound ctx := fun _ => .loosen (.text (.steady rfl))
    exact sound_call guarded name distinct star fun _ => leads_callTail groups filter window
  | case =>
    obtain ⟨subject, arms, otherwise, _⟩ := below
    exact sound_case subject arms otherwise
  | arithmetic op => exact sound_arithmetic guarded op below.1 below.2.1
  | negate => exact sound_negate below.1
  | customBinary op =>
    intro opened
    exact ((sound_tight below.1 opened).spaced rfl (guarded.operatorDoc op)).spaced rfl
      (sound_tight below.2.1 opened)
  | customUnary op =>
    intro opened
    exact (guarded.operatorDoc op).spaced rfl (sound_tight below.1 opened)
  | cast =>
    intro opened
    have start : (Doc.text "CAST(").Leads ctx (Clear opened) (Clear (.round :: opened)) :=
      .text (.opens rfl)
    exact .loosen (.append (.spaced (start.append (below.1 _)) rfl (below.2.1 _)) (.text (.shuts rfl rfl)))
  | typeName base dims zone => exact sound_typeName guarded checked dims zone below.1
  | array =>
    intro opened
    have start : (Doc.require .arrayLiteral ++ Doc.text "ARRAY[").Leads ctx (Clear opened)
        (Clear (.square :: opened)) :=
      .append .require (.text (.opens rfl))
    exact .loosen (.append (.append start (sound_list below.1 _)) (.text (.shuts rfl rfl)))
  | row => exact .parens (sound_list below.1)
  | rowList => exact sound_list below.1
  | subquery => exact .block below.1
  | collate collation =>
    intro opened
    exact (sound_tight below.1 opened).spaced rfl (guarded.nameDoc collation opened)
  | atTimeZone =>
    intro opened
    exact (Doc.Leads.require.append (sound_tight below.1 opened)).spaced rfl (sound_tight below.2.1 opened)
  | predicate => exact below.1
  | comparison op => exact sound_comparison guarded op below.1 below.2.1
  | between symmetric => exact sound_between symmetric below.1 below.2.1 below.2.2.1
  | like negated => exact sound_like negated below.1 below.2.1 below.2.2.1
  | isNull negated =>
    intro opened
    refine (sound_side below.1 opened).trail (.loosen (.text (.ofBreak ?_)))
    cases negated <;> rfl
  | isDistinctFrom negated =>
    intro opened
    refine (Doc.Leads.require.append (sound_side below.1 opened)).spaced ?_ (sound_side below.2.1 opened)
    cases negated <;> rfl
  | membership negated =>
    intro opened
    refine (sound_side below.1 opened).spaced ?_ (below.2.1 opened)
    cases negated <;> rfl
  | existence negated =>
    intro opened
    refine .append (.text (.steady ?_)) (Doc.Sound.block below.1 opened)
    cases negated <;> rfl
  | quantified op quantifier => exact sound_quantified guarded op quantifier below.1 below.2.1
  | condition => exact below.1
  | negation => exact sound_negation below.1
  | connective op => exact sound_connective op below.1 below.2.1
  | valueSet variant =>
    cases variant with
    | query => exact .block below.1
    | row => exact below.1
    | rowList => exact .parens below.1
  | tableRef => exact below.1
  | namedTable t => exact sound_namedTable guarded t
  | subqueryTable correlation =>
    intro opened
    exact (Doc.Sound.block below.1 opened).trail (leads_tableAlias guarded correlation)
  | valuesTable correlation =>
    intro opened
    have values : (Doc.text "VALUES " ++ parts.1.value).Sound ctx := fun o =>
      .append (.text (.steady rfl)) (below.1 o)
    exact (values.parens opened).trail (leads_tableAlias guarded correlation)
  | functionTable correlation =>
    intro opened
    exact Doc.Leads.trail (below.1 opened) (leads_tableAlias guarded correlation)
  | lateralTable =>
    intro opened
    exact .append (.append .require (.text (.steady rfl))) (below.1 opened)
  | join => exact below.1
  | crossJoin | naturalJoin =>
    intro opened
    exact .append (.text (.steady rfl)) (below.1 opened)
  | usingJoin kind columns => exact sound_usingJoin guarded kind columns below.1
  | onJoin kind => exact sound_onJoin kind below.1 below.2.1
  | query => exact below.1
  | select => exact sound_select _ below
  | composite ops => exact sound_composite _ ops _ below.1 below.2.1
  | withQuery recursive => exact sound_withQuery recursive below.1 below.2.1
  | cte name columns m => exact sound_cte guarded name columns m below.1
  | aliased name =>
    intro opened
    exact Doc.Leads.trail (below.1 opened) (.ofOption fun a _ => .behind rfl (guarded.identDoc a))
  | star | distinct => exact fun _ => .loosen (.text (.steady rfl))
  | qualifiedStar name =>
    intro opened
    exact (guarded.nameDoc name opened).trail (.loosen (.text (.ofBreak rfl)))
  | distinctOn =>
    intro opened
    exact .append (.append .require (.text (.steady rfl))) (Doc.Sound.parens (sound_list below.1) opened)
  | groupBy | orderBy | partitionBy =>
    intro opened
    exact .append (.text (.steady rfl)) (sound_list below.1 opened)
  | orderItem dir nulls => exact sound_orderItem _ dir nulls below.1
  | limitOffset => exact fun _ => .loosen .empty
  | locking l => exact sound_locking guarded l
  | windowDef name =>
    intro opened
    exact (guarded.identDoc name opened).spaced rfl (Doc.Sound.parens below.1 opened)
  | windowSpec exclude => exact sound_windowSpec exclude below.1 below.2.1 below.2.2.1
  | overName name => exact guarded.identDoc name
  | overSpec => exact .parens below.1
  | frameFrom unit =>
    intro opened
    exact (steady_frameUnit unit).append (below.1 opened)
  | frameBetween unit =>
    intro opened
    exact (((steady_frameUnit unit).append (.text (.steady rfl))).append (below.1 opened)).spaced rfl
      (below.2.1 opened)
  | boundAt edge =>
    intro opened
    refine .loosen (.text (.steady ?_))
    cases edge <;> rfl
  | boundOffset side =>
    intro opened
    refine Doc.Leads.trail (below.1 opened) (.loosen (.text (.ofBreak ?_)))
    cases side <;> rfl

/-- The document of a valid tree is sound. -/
theorem Tree.Valid.sound_doc (guarded : ctx.dialect.Guarded) {k : Kind} {t : Tree k} (valid : t.Valid) :
    (t.doc ctx.dialect.toStyle).Sound ctx := by
  refine Tree.Valid.induction_below (Q := fun t => (t.doc ctx.dialect.toStyle).Sound ctx)
    (fun form below attributes shape inside => ?_) valid
  have checked := (form.check_eq_of_shape (below.drawn_shape ctx.dialect.toStyle)).trans shape
  rw [Tree.doc_node guarded.renderers]
  exact Render.sound_standard guarded attributes checked (Forest.all_drawn.mpr inside)

end SqlTree

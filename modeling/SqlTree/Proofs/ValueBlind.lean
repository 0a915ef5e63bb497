import SqlTree.Proofs.Lockstep
import SqlTree.Proofs.Rendered
import SqlTree.Proofs.Visited

namespace SqlTree

/-- The same name or number, with a value in both or in neither. -/
structure Param.Alike (p q : Param) : Prop where
  kind : p.kind = q.kind
  value : p.value.isSome = q.value.isSome

theorem Param.Alike.refl (p : Param) : p.Alike p :=
  ⟨rfl, rfl⟩

theorem Param.Alike.name?_eq {p q : Param} (alike : p.Alike q) : p.name? = q.name? := by
  rw [Param.name?, Param.name?, alike.kind]

theorem Param.Alike.valueless?_eq {p q : Param} (alike : p.Alike q) : p.valueless? = q.valueless? := by
  obtain ⟨kind, value⟩ := p
  obtain ⟨kind', value'⟩ := q
  obtain ⟨rfl, values⟩ := alike
  cases value <;> cases value' <;> simp_all [Param.valueless?]

mutual

/-- What a visit of the parameters finds in trees that are alike is related, if it is so at each
parameter and if joining respects the relation. -/
theorem Tree.Alike.visit {ρ : Type} {unit : ρ} {combine : ρ → ρ → ρ} {each : Param → ρ}
    (lawful : (Visitor.params unit combine each).Lawful) {R : ρ → ρ → Prop} (atUnit : R unit unit)
    (atJoin : ∀ {a b c d}, R a b → R c d → R (combine a c) (combine b d))
    (atParam : ∀ {p q : Param}, p.Alike q → R (each p) (each q)) :
    {free : Bool} → {k : Kind} → {t u : Tree k} → Tree.Alike free t u →
    R (t.visit (Visitor.params unit combine each)) (u.visit (Visitor.params unit combine each))
  | _, _, _, _, .literal .. => atUnit
  | _, _, _, _, .param _ kind a b => atParam ⟨rfl, rfl⟩
  | _, k, _, _, .node _ form below => by
    by_cases atLeaf : k = .param
    · subst atLeaf
      cases form with
      | param p =>
        cases below
        exact atParam (.refl p)
    · rw [lawful.visit_node, lawful.visit_node, Visitor.params_enter _ _ _ _ _ atLeaf,
        Visitor.params_enter _ _ _ _ _ atLeaf]
      exact below.total lawful atUnit atJoin atParam

theorem Forest.Alike.total {ρ : Type} {unit : ρ} {combine : ρ → ρ → ρ} {each : Param → ρ}
    (lawful : (Visitor.params unit combine each).Lawful) {R : ρ → ρ → Prop} (atUnit : R unit unit)
    (atJoin : ∀ {a b c d}, R a b → R c d → R (combine a c) (combine b d))
    (atParam : ∀ {p q : Param}, p.Alike q → R (each p) (each q)) :
    {free : Bool} → {slots : List Slot} → {f g : Forest slots} → Forest.Alike free f g →
    R (f.total (Visitor.params unit combine each)) (g.total (Visitor.params unit combine each))
  | _, _, _, _, .nil _ => atUnit
  | _, _, _, _, .one t rest => by
    rw [lawful.total_one, lawful.total_one]
    exact atJoin (t.visit lawful atUnit atJoin atParam) (rest.total lawful atUnit atJoin atParam)
  | _, _, _, _, .absent rest => rest.total lawful atUnit atJoin atParam
  | _, _, _, _, .present t rest => by
    rw [lawful.total_present, lawful.total_present]
    exact atJoin (t.visit lawful atUnit atJoin atParam) (rest.total lawful atUnit atJoin atParam)
  | _, _, _, _, .done rest => rest.total lawful atUnit atJoin atParam
  | _, _, _, _, .more t rest => by
    rw [lawful.total_more, lawful.total_more]
    exact atJoin (t.visit lawful atUnit atJoin atParam) (rest.total lawful atUnit atJoin atParam)
  | _, _, _, _, .noArm rest => rest.total lawful atUnit atJoin atParam
  | _, _, _, _, .arm c t rest => by
    rw [lawful.total_arm, lawful.total_arm]
    exact atJoin (c.visit lawful atUnit atJoin atParam)
      (atJoin (t.visit lawful atUnit atJoin atParam) (rest.total lawful atUnit atJoin atParam))

end

theorem Tree.Alike.firstValueless?_eq {free : Bool} {k : Kind} {t u : Tree k}
    (alike : Tree.Alike free t u) : t.firstValueless? = u.firstValueless? := by
  have lawful : (Visitor.params none Option.or Param.valueless?).Lawful :=
    ⟨fun a b c => by cases a <;> rfl, fun a => by cases a <;> rfl, fun a => by cases a <;> rfl⟩
  exact alike.visit lawful rfl (fun {a b c d} left right => by rw [left, right])
    fun alike => alike.valueless?_eq

theorem Tree.Alike.callerNames_eq {free : Bool} {k : Kind} {t u : Tree k}
    (alike : Tree.Alike free t u) : t.callerNames = u.callerNames := by
  refine alike.visit Visitor.collected_lawful
    (R := fun ps qs => ps.filterMap Param.name? = qs.filterMap Param.name?) rfl
    (fun left right => ?_) fun {p q} alike => ?_
  · rw [List.filterMap_append, List.filterMap_append, left, right]
  · simp only [List.filterMap_cons, alike.name?_eq]

theorem Forest.Alike.literal_numbered {free : Bool} {below others : Forest [.one .literal]}
    (alike : Forest.Alike free below others) (n m : Numbering) (same : n.last = m.last) :
    let t : Expr := .node (.expr .literal) below
    let u : Expr := .node (.expr .literal) others
    Tree.Alike false (t.numbered n).1 (u.numbered m).1 ∧
      (t.numbered n).2.last = (u.numbered m).2.last := by
  cases alike with
  | one leaf rest =>
    cases rest
    cases leaf with
    | node _ form below =>
      cases form with
      | literal value =>
        cases below
        by_cases null : value.isNull = true
        · obtain rfl := Literal.eq_null null
          exact ⟨.node _ _ (.one (.node _ _ (.nil _)) (.nil _)), same⟩
        · have solid : value.isNull = false := by simpa using null
          simp only [Numbering.numbered_literal _ solid, same]
          exact ⟨.node _ _ (.one (.param _ _ _ _) (.nil _)), trivial⟩

theorem Forest.Alike.param_numbered {free : Bool} {below others : Forest [.one .param]}
    (alike : Forest.Alike free below others) (n m : Numbering) (same : n.last = m.last) :
    let t : Expr := .node (.expr .param) below
    let u : Expr := .node (.expr .param) others
    Tree.Alike false (t.numbered n).1 (u.numbered m).1 ∧
      (t.numbered n).2.last = (u.numbered m).2.last := by
  have keep : ∀ {p q : Param}, Tree.Alike false (.param p) (.param q) →
      Tree.Alike false (Expr.param p) (Expr.param q) :=
    fun leaf => .node _ _ (.one leaf (.nil _))
  cases alike with
  | one leaf rest =>
    cases rest
    cases leaf with
    | param _ kind a b =>
      cases kind with
      | anonymous =>
        simp only [Numbering.numbered_anonymous, same]
        exact ⟨keep (.param _ _ _ _), trivial⟩
      | named name => exact ⟨keep (.param _ _ _ _), same⟩
      | ordinal index => exact ⟨keep (.param _ _ _ _), same⟩
    | node _ form below =>
      cases form with
      | param p =>
        cases below
        obtain ⟨kind, value⟩ := p
        cases kind with
        | anonymous =>
          simp only [Numbering.numbered_anonymous, same]
          exact ⟨keep (.node _ _ (.nil _)), trivial⟩
        | named name => exact ⟨keep (.node _ _ (.nil _)), same⟩
        | ordinal index => exact ⟨keep (.node _ _ (.nil _)), same⟩

mutual

/-- Numbering gives the same numbers to trees that are alike, and what is left to differ are the values
of parameters. -/
theorem Tree.Alike.numbered : {free : Bool} → {k : Kind} → {t u : Tree k} → Tree.Alike free t u →
    free = true → ∀ n m : Numbering, n.last = m.last →
    Tree.Alike false (t.numbered n).1 (u.numbered m).1 ∧ (t.numbered n).2.last = (u.numbered m).2.last
  | _, _, _, _, .literal left right, _, n, m, same => by
    rw [Numbering.numbered_literal n left, Numbering.numbered_literal m right, same]
    exact ⟨.node _ _ (.one (.param _ _ _ _) (.nil _)), rfl⟩
  | _, _, _, _, .param _ kind a b, _, n, m, same => ⟨.param _ kind a b, same⟩
  | _, _, _, _, .node free form below, fixed, n, m, same => by
    cases form.numbered with
    | literal => exact below.literal_numbered n m same
    | param => exact below.param_numbered n m same
    | typeName base dims zone => exact ⟨.node _ _ (by simpa using below), same⟩
    | plain other =>
      have outside := Form.kind_ne_typeName other
      rw [Numbering.numbered_plain n other, Numbering.numbered_plain m other]
      obtain ⟨alike, last⟩ := below.numbered (by simp [fixed, outside]) n m same
      exact ⟨.node _ form alike, last⟩

theorem Forest.Alike.numbered : {free : Bool} → {slots : List Slot} → {f g : Forest slots} →
    Forest.Alike free f g → free = true → ∀ n m : Numbering, n.last = m.last →
    Forest.Alike false (f.numbered n).1 (g.numbered m).1 ∧ (f.numbered n).2.last = (g.numbered m).2.last
  | _, _, _, _, .nil _, _, n, m, same => ⟨.nil _, same⟩
  | _, _, _, _, .one t rest, fixed, n, m, same => by
    obtain ⟨first, next⟩ := t.numbered fixed n m same
    obtain ⟨others, last⟩ := rest.numbered fixed _ _ next
    rw [Forest.numbered_one, Forest.numbered_one]
    exact ⟨.one first others, last⟩
  | _, _, _, _, .absent rest, fixed, n, m, same => by
    obtain ⟨others, last⟩ := rest.numbered fixed n m same
    rw [Forest.numbered_absent, Forest.numbered_absent]
    exact ⟨.absent others, last⟩
  | _, _, _, _, .present t rest, fixed, n, m, same => by
    obtain ⟨first, next⟩ := t.numbered fixed n m same
    obtain ⟨others, last⟩ := rest.numbered fixed _ _ next
    rw [Forest.numbered_present, Forest.numbered_present]
    exact ⟨.present first others, last⟩
  | _, _, _, _, .done rest, fixed, n, m, same => by
    obtain ⟨others, last⟩ := rest.numbered fixed n m same
    rw [Forest.numbered_done, Forest.numbered_done]
    exact ⟨.done others, last⟩
  | _, _, _, _, .more t rest, fixed, n, m, same => by
    obtain ⟨first, next⟩ := t.numbered fixed n m same
    obtain ⟨others, last⟩ := rest.numbered fixed _ _ next
    rw [Forest.numbered_more, Forest.numbered_more]
    exact ⟨.more first others, last⟩
  | _, _, _, _, .noArm rest, fixed, n, m, same => by
    obtain ⟨others, last⟩ := rest.numbered fixed n m same
    rw [Forest.numbered_noArm, Forest.numbered_noArm]
    exact ⟨.noArm others, last⟩
  | _, _, _, _, .arm c t rest, fixed, n, m, same => by
    obtain ⟨first, next⟩ := c.numbered fixed n m same
    obtain ⟨second, later⟩ := t.numbered fixed _ _ next
    obtain ⟨others, last⟩ := rest.numbered fixed _ _ later
    rw [Forest.numbered_arm, Forest.numbered_arm]
    exact ⟨.arm first second others, last⟩

end

/-- What is left of a rendered text without the bound values. -/
def SqlText.outline (text : SqlText) : String × List (Option String) :=
  (text.sql, text.params.map (·.name))

theorem Writer.Alike.refl (names : Bool) (w : Writer) : w.Alike names w :=
  ⟨rfl, rfl, rfl, fun _ => rfl, rfl, rfl, rfl⟩

theorem Writer.Alike.outline_eq {names : Bool} {w v : Writer} (pages : w.Alike names v) :
    w.finish.outline = v.finish.outline := by
  simp only [SqlText.outline, Writer.finish, pages.text, pages.params]

theorem Outcome.Alike.result_eq {names : Bool} {r s : Except Error Unit × Writer}
    (alike : Outcome.Alike names r s) (unnamed : names = false) :
    (Outcome.result r).map SqlText.outline = (Outcome.result s).map SqlText.outline := by
  obtain ⟨r, w⟩ := r
  obtain ⟨s, v⟩ := s
  obtain ⟨rfl, pages⟩ | ⟨named, _⟩ := alike
  · cases r with
    | error e => rfl
    | ok => exact congrArg Except.ok pages.outline_eq
  · rw [unnamed] at named
    cases named

theorem Outcome.Alike.outline_eq {names : Bool} {r s : Except Error Unit × Writer}
    (alike : Outcome.Alike names r s) (a b : SqlText) (left : Outcome.result r = .ok a)
    (right : Outcome.result s = .ok b) : a.outline = b.outline := by
  obtain ⟨r | _, w⟩ := r
  · cases left
  obtain ⟨s | _, v⟩ := s
  · cases right
  cases left
  cases right
  obtain ⟨_, pages⟩ | ⟨_, ⟨_, failed⟩ | ⟨_, failed⟩⟩ := alike
  · exact pages.outline_eq
  · cases failed
  · cases failed

/-- Trees that differ in bound values only are rendered with the same text and the same names, or fail
alike. With named placeholders a name that comes twice must come with the same value, so one of the
renderings may fail there; as long as none does, text and names are the same. -/
theorem Tree.Alike.render_outline {k : Kind} {t u : Tree k} (alike : Tree.Alike true t u)
    {dialect : Dialect} (standard : dialect.toStyle.StandardRenderers) {options : RenderOptions}
    (bind : options.mode = .bind) :
    (options.placeholder ≠ .named →
      (t.render dialect options).result.map SqlText.outline =
        (u.render dialect options).result.map SqlText.outline) ∧
    ∀ a b, (t.render dialect options).result = .ok a → (u.render dialect options).result = .ok b →
      a.outline = b.outline := by
  obtain ⟨same, _⟩ := alike.numbered rfl .start .start rfl
  rw [t.render_bind dialect bind, u.render_bind dialect bind]
  simp only [same.firstValueless?_eq, same.callerNames_eq]
  cases (u.numbered .start).1.firstValueless? with
  | some p =>
    refine ⟨fun _ => rfl, fun a b left _ => ?_⟩
    cases left
  | none =>
    have written := (same.docAlike standard rfl).write ⟨dialect, options⟩ bind _ _
      (.refl _ ((Writer.blank options.pretty).reserve (u.numbered .start).1.callerNames))
    rw [Tree.renderOn_result, Tree.renderOn_result]
    exact ⟨fun unnamed => written.result_eq (by simpa using unnamed), written.outline_eq⟩

/-- A number and a text that would end a statement give the same sum. -/
theorem Tree.Alike.render_outline_sum :
    let sum (value : Literal) : Expr :=
      .of .arithmetic (.node (.arithmetic .add)
        (.one (Expr.literal value) (.one (Expr.param ⟨.named "n", some value⟩) .nil)))
    let one := sum (.integer 1)
    let other := sum (.string "1; --")
    Tree.Alike true one other ∧
      (one.render .standard (.bind .ordinal)).result.map SqlText.outline =
        (other.render .standard (.bind .ordinal)).result.map SqlText.outline := by
  intro sum one other
  have alike : Tree.Alike true one other :=
    .node _ _ (.one (.node _ _ (.one (.literal rfl rfl)
      (.one (.node _ _ (.one (.param _ _ _ _) (.nil _))) (.nil _)))) (.nil _))
  have standard : Dialect.standard.toStyle.StandardRenderers := fun _ _ => rfl
  have bind : (RenderOptions.bind .ordinal).mode = .bind := rfl
  exact ⟨alike, (alike.render_outline standard bind).1 (by decide)⟩

end SqlTree

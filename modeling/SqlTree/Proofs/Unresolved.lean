import SqlTree.Proofs.InlineFailure
import SqlTree.Proofs.Replaced

namespace SqlTree

/-- An anonymous or numbered parameter without a value. -/
def Param.Unbindable (p : Param) : Prop :=
  p.value = none ∧ p.name? = none

theorem Param.not_unbindable (p : Param) : p.valueless? = none ↔ ¬p.Unbindable := by
  rw [Param.valueless?_eq_none, Param.Unbindable, not_and, Option.isSome_iff_ne_none]

/-- A place where a value may be bound: a literal or an anonymous parameter that preparing replaces, or a
parameter that stays. Parameters in type names and parameters that stand alone stay even if they are
anonymous. -/
inductive Occurrence where
  | literal (value : Literal)
  | anonymous (value : Option Literal)
  | fixed (param : Param)

namespace Occurrence

/-- The expression that preparing replaces. -/
def loose? : Occurrence → Option Expr
  | .literal value => some (Expr.literal value)
  | .anonymous value => some (Expr.param ⟨.anonymous, value⟩)
  | .fixed _ => none

def param? : Occurrence → Option Param
  | .literal _ => none
  | .anonymous value => some ⟨.anonymous, value⟩
  | .fixed p => some p

/-- The parameter that an occurrence becomes when a number was given last. -/
def becomes (last : UInt32) : Occurrence → Param
  | .literal value => .numbered (last + 1) (some value)
  | .anonymous value => .numbered (last + 1) value
  | .fixed p => p

/-- The number given last behind some occurrences. -/
def reached (last : UInt32) (xs : List Occurrence) : UInt32 :=
  last + .ofNat (xs.filterMap loose?).length

/-- The parameters that occurrences become. -/
def params (last : UInt32) : List Occurrence → List Param
  | [] => []
  | x :: rest => x.becomes last :: params (reached last [x]) rest

theorem reached_nil (last : UInt32) : reached last [] = last :=
  UInt32.add_zero _

theorem reached_append (last : UInt32) (xs ys : List Occurrence) :
    reached last (xs ++ ys) = reached (reached last xs) ys := by
  unfold reached
  rw [List.filterMap_append, List.length_append, UInt32.ofNat_add, UInt32.add_assoc]

theorem params_append (last : UInt32) (xs ys : List Occurrence) :
    params last (xs ++ ys) = params last xs ++ params (reached last xs) ys := by
  induction xs generalizing last with
  | nil => rw [reached_nil, params, List.nil_append, List.nil_append]
  | cons x xs ih => rw [List.cons_append, params, ih, ← reached_append, List.singleton_append, params,
      List.cons_append]

@[simp]
theorem filterMap_loose?_fixed (ps : List Param) : (ps.map fixed).filterMap loose? = [] := by
  simp [List.filterMap_map, Function.comp_def, loose?]

@[simp]
theorem filterMap_param?_fixed (ps : List Param) : (ps.map fixed).filterMap param? = ps := by
  simp [List.filterMap_map, Function.comp_def, param?]

theorem params_fixed (last : UInt32) (ps : List Param) : params last (ps.map fixed) = ps := by
  induction ps generalizing last with
  | nil => rfl
  | cons p ps ih =>
    rw [List.map_cons, params, ih]
    rfl

theorem toNat_next {xs : List Occurrence} (few : (xs.filterMap loose?).length + 1 < UInt32.size) :
    (max (reached 0 xs + 1) 1).toNat = (xs.filterMap loose?).length + 1 := by
  have here : (reached 0 xs).toNat = (xs.filterMap loose?).length := by
    rw [reached, UInt32.zero_add]
    exact UInt32.toNat_ofNat_of_lt (Nat.lt_of_succ_lt few)
  rw [Numbering.toNat_next (by omega), here]

/-- Something can be bound to what an occurrence becomes unless it is a parameter to which nothing can be
bound. -/
theorem valueless?_becomes (last : UInt32) (x : Occurrence) :
    (x.becomes last).valueless? = none ↔ ∀ p ∈ x.param?, ¬p.Unbindable := by
  cases x with
  | literal value => exact ⟨fun _ => nofun, fun _ => rfl⟩
  | anonymous value =>
    rw [Param.not_unbindable]
    simp [becomes, param?, Param.Unbindable, Param.numbered, Param.name?]
  | fixed p =>
    rw [becomes, Param.not_unbindable]
    simp [param?]

/-- Something can be bound to all parameters that occurrences become exactly when it can to all parameters
among them. -/
theorem findSome?_params (last : UInt32) (xs : List Occurrence) :
    (params last xs).findSome? Param.valueless? = none ↔ ∀ p ∈ xs.filterMap param?, ¬p.Unbindable := by
  induction xs generalizing last with
  | nil => simp [params]
  | cons x xs ih =>
    have split : (params last (x :: xs)).findSome? Param.valueless? = none ↔
        (x.becomes last).valueless? = none ∧ (params (reached last [x]) xs).findSome? Param.valueless? = none := by
      rw [params, List.findSome?_eq_none_iff, List.forall_mem_cons, ← List.findSome?_eq_none_iff]
    rw [split, ih, valueless?_becomes, ← List.singleton_append, List.filterMap_append,
      List.forall_mem_append]
    refine and_congr_left' ?_
    cases x <;> simp [param?]

/-- The first parameter to which nothing can be bound, when it is known where it stands. -/
theorem findSome?_params_first (last : UInt32) {before : List Occurrence} {x : Occurrence} {v : Valueless}
    (after : List Occurrence) (bindable : ∀ p ∈ before.filterMap param?, ¬p.Unbindable)
    (here : (x.becomes (reached last before)).valueless? = some v) :
    (params last (before ++ x :: after)).findSome? Param.valueless? = some v := by
  rw [params_append, List.findSome?_append, (findSome?_params last before).mpr bindable, Option.none_or,
    params, List.findSome?_cons, here]

end Occurrence

/-- Collects the occurrences of a tree in written order. -/
def Visitor.occurrences : Visitor Id (List Occurrence) where
  unit := []
  combine := (· ++ ·)
  enter := fun {k} t below =>
    match k, t with
    | .expr, Expr.literal value => if value.isNull then [] else [.literal value]
    | .expr, Expr.param ⟨.anonymous, value⟩ => [.anonymous value]
    | .param, .param p => [.fixed p]
    | .typeName, t => t.params.map .fixed
    | _, _ => below

def Tree.occurrences {k : Kind} (t : Tree k) : List Occurrence :=
  t.visit Visitor.occurrences |>.run

theorem Visitor.occurrences_lawful : Visitor.occurrences.Lawful :=
  ⟨List.append_assoc, List.nil_append, List.append_nil⟩

theorem Visitor.occurrences_enter {k : Kind} {form : Form k} (other : form.isNumbered = false)
    (inner : k ≠ .param) (below : Forest form.slots) (result : Id (List Occurrence)) :
    Visitor.occurrences.enter (.node form below) result = result := by
  cases form with
  | expr variant => cases variant <;> first | rfl | cases other
  | typeName => cases other
  | param => exact absurd rfl inner
  | _ => rfl

theorem Expr.occurrences_literal {value : Literal} (solid : value.isNull = false) :
    (Expr.literal value).visit Visitor.occurrences = [.literal value] := by
  change (if value.isNull then [] else [Occurrence.literal value]) = _
  rw [solid]
  rfl

theorem Tree.occurrences_typeName (t : Tree .typeName) :
    t.visit Visitor.occurrences = t.params.map Occurrence.fixed := by
  cases t
  rfl

/-- The parameters of the numbered tree are what the occurrences of the tree become. -/
theorem Visitor.occurrences_across : Visitor.occurrences.Across Visitor.collected fun i j xs ps =>
    ps = Occurrence.params i xs ∧ j = Occurrence.reached i xs where
  before := Visitor.occurrences_lawful
  after := Visitor.collected_lawful
  unit _ := ⟨rfl, (Occurrence.reached_nil _).symm⟩
  combine := by
    rintro i j l xs ps ys qs ⟨first, rfl⟩ ⟨second, stop⟩
    change ps ++ qs = Occurrence.params i (xs ++ ys) ∧ l = Occurrence.reached i (xs ++ ys)
    rw [Occurrence.params_append, Occurrence.reached_append, first, second]
    exact ⟨rfl, stop⟩
  literal value n := by
    by_cases null : value.isNull = true
    · obtain rfl := Literal.eq_null null
      exact ⟨rfl, (Occurrence.reached_nil _).symm⟩
    · have solid : value.isNull = false := by simpa using null
      rw [Numbering.numbered_literal n solid, Expr.occurrences_literal solid]
      exact ⟨rfl, rfl⟩
  param p n := by
    obtain ⟨kind, value⟩ := p
    cases kind with
    | anonymous => exact ⟨rfl, rfl⟩
    | named | ordinal => exact ⟨rfl, (Occurrence.reached_nil _).symm⟩
  typeName t last := by
    rw [t.occurrences_typeName]
    refine ⟨(Occurrence.params_fixed last t.params).symm, ?_⟩
    rw [Occurrence.reached, Occurrence.filterMap_loose?_fixed]
    exact (Occurrence.reached_nil _).symm
  plain {k form} other below below' _ _ inside := by
    by_cases leaf : k = .param
    · subst leaf
      cases form
      cases below
      cases below'
      exact ⟨rfl, inside.2⟩
    · rw [Visitor.occurrences_enter other leaf, Visitor.params_enter _ _ _ _ _ leaf]
      exact inside

theorem Tree.params_numbered {k : Kind} (t : Tree k) (n : Numbering) :
    (t.numbered n).1.params = Occurrence.params n.last t.occurrences :=
  (Visitor.occurrences_across.visit t n).1

/-- The occurrences of a tree that are parameters are all parameters of it. -/
theorem Tree.params_occurrences {k : Kind} (t : Tree k) : t.occurrences.filterMap Occurrence.param? = t.params := by
  have joins : Visitor.occurrences.Joins Visitor.collected fun xs ps => xs.filterMap Occurrence.param? = ps :=
    { left := Visitor.occurrences_lawful
      right := Visitor.collected_lawful
      unit := rfl
      combine := fun left right => by
        subst left right
        exact List.filterMap_append ..
      enter := fun {k} form below inside => by
        cases form.numbered with
        | literal =>
          match below with
          | .one (.literal value) .nil =>
            change (if value.isNull then [] else [Occurrence.literal value]).filterMap
              Occurrence.param? = []
            split <;> rfl
        | param =>
          match below with
          | .one (.param ⟨.anonymous, value⟩) .nil => rfl
          | .one (.param ⟨.named name, value⟩) .nil => rfl
          | .one (.param ⟨.ordinal index, value⟩) .nil => rfl
        | typeName base dims zone =>
          have visited := Visitor.collected_lawful.visit_node (.typeName base dims zone) below
          exact (Occurrence.filterMap_param?_fixed _).trans visited
        | plain other =>
          by_cases leaf : k = .param
          · subst leaf
            cases form
            cases below
            rfl
          · rw [Visitor.occurrences_enter other leaf, Visitor.params_enter _ _ _ _ _ leaf]
            exact inside }
  exact joins.visit t

/-- The loose occurrences of a tree are the expressions that preparing replaces. -/
theorem Tree.loose_occurrences {k : Kind} (t : Tree k) : t.occurrences.filterMap Occurrence.loose? = t.loose := by
  have joins : Visitor.occurrences.Joins Visitor.exposed fun xs es =>
      xs.filterMap Occurrence.loose? = es.filter Expr.isLoose :=
    { left := Visitor.occurrences_lawful
      right := Visitor.exposed_lawful
      unit := rfl
      combine := fun {a b c d} left right => by
        change (a ++ c).filterMap Occurrence.loose? = (b ++ d).filter Expr.isLoose
        rw [List.filterMap_append, List.filter_append, left, right]
      enter := fun {k} form below inside => by
        cases form.numbered with
        | literal =>
          match below with
          | .one (.literal value) .nil =>
            by_cases null : value.isNull = true
            · obtain rfl := Literal.eq_null null
              rfl
            · have solid : value.isNull = false := by simpa using null
              change ((Expr.literal value).visit Visitor.occurrences).filterMap Occurrence.loose? =
                (Expr.literal value).loose
              rw [Expr.occurrences_literal solid, Expr.loose_literal solid]
              rfl
        | param =>
          match below with
          | .one (.param ⟨.anonymous, value⟩) .nil => rfl
          | .one (.param ⟨.named name, value⟩) .nil => rfl
          | .one (.param ⟨.ordinal index, value⟩) .nil => rfl
        | typeName base dims zone => exact Occurrence.filterMap_loose?_fixed _
        | plain other =>
          rw [Visitor.loose_enter other]
          by_cases leaf : k = .param
          · subst leaf
            cases form
            cases below
            rfl
          · rw [Visitor.occurrences_enter other leaf]
            exact inside }
  exact joins.visit t

/-- The parameter about which an error says that nothing can be bound to it. -/
def Error.valueless? : Error → Option Valueless
  | .unresolved v | .unbound v => some v
  | _ => none

theorem Context.enterName_error {name : String} {value : Option Literal} {w u : Writer} {e : Error}
    (failed : (Context.enterName name value).outcome w = (.error e, u)) : e.valueless? = none := by
  rw [Context.outcome_enterName] at failed
  split at failed
  · cases failed
  · split at failed
    · cases failed
    · cases failed
      rfl

/-- Binding a parameter to which something can be bound fails for its name at most. -/
theorem Context.bindParam_error {ctx : Context} {p : Param} (bindable : p.valueless? = none) {w u : Writer}
    {e : Error} (failed : (ctx.bindParam p).outcome w = (.error e, u)) : e.valueless? = none := by
  have named : ∀ {name : String} {value : Option Literal} {entry : BindParam} {text : String},
      (Writing.outcome (do
        Context.enterName name value
        Context.place entry text) w) = (.error e, u) → e.valueless? = none := by
    intro name value entry text stopped
    rw [Writing.outcome_bind] at stopped
    split at stopped
    · cases stopped
    · rename_i entering
      cases stopped
      exact Context.enterName_error entering
  obtain ⟨kind, value⟩ := p
  cases value with
  | none =>
    cases kind with
    | named name => exact named failed
    | ordinal | anonymous => cases bindable
  | some value =>
    rw [ctx.outcome_bindParam rfl] at failed
    cases choice : ctx.options.placeholder <;> simp only [choice] at failed
    · cases failed
    · cases failed
    · exact named failed

/-- No document stops for want of a value, unless it says so itself or has a parameter to which nothing can
be bound. -/
theorem Doc.write_error {ctx : Context} {d : Doc}
    (stated : d.Meets fun x => ∀ e, x = .never e → e.valueless? = none)
    (bindable : ctx.options.mode = .bind → ∀ p ∈ d.params, p.valueless? = none) {w u : Writer} {e : Error}
    (failed : (d.write ctx).outcome w = (.error e, u)) : e.valueless? = none := by
  induction d generalizing w u with
  | empty | text | gap | note => cases failed
  | append first second left right =>
    obtain ⟨statedLeft, statedRight⟩ := (Doc.meets_append first second).mp stated
    change (first.write ctx >>= fun _ => second.write ctx).outcome w = _ at failed
    rw [Writing.outcome_bind] at failed
    split at failed
    · exact right statedRight (fun bind p member => bindable bind p (List.mem_append_right _ member)) failed
    · rename_i atFirst
      cases failed
      exact left statedLeft (fun bind p member => bindable bind p (List.mem_append_left _ member)) atFirst
  | block body ih =>
    change (Writing.nested (body.write ctx)).outcome w = _ at failed
    rw [Writing.outcome_nested] at failed
    split at failed
    · cases failed
    · rename_i inside
      cases failed
      exact ih stated bindable inside
  | require construct =>
    unfold Doc.write at failed
    split at failed
    · cases failed
    · cases failed
      rfl
  | fail error =>
    cases failed
    exact stated (.never e) (List.mem_singleton_self _) e rfl
  | param p inline ih =>
    unfold Doc.write at failed
    split at failed
    · rename_i bind
      exact Context.bindParam_error (bindable bind p (List.mem_singleton_self p)) failed
    · rename_i inlined
      exact ih stated (fun bind => absurd bind inlined) failed
  | afterMinus body ih =>
    change (Writing.captured guardMinus (body.write ctx)).outcome w = _ at failed
    rw [Writing.outcome_captured] at failed
    split at failed
    · cases failed
    · rename_i inside
      cases failed
      exact ih stated bindable inside

/-- Writing a valid tree to all of whose parameters something can be bound does not stop for want of a
value. -/
theorem Tree.Valid.renderOn_error {k : Kind} {t : Tree k} (valid : t.Valid) {ctx : Context}
    (standard : ctx.dialect.toStyle.StandardRenderers)
    (bindable : ctx.options.mode = .bind → ∀ p ∈ t.params, p.valueless? = none) {reserved : List String}
    {e : Error} (failed : (t.renderOn ctx reserved).result = .error e) : e.valueless? = none := by
  have stated : (t.doc ctx.dialect.toStyle).Meets fun x => ∀ e, x = .never e → e.valueless? = none := by
    refine (Tree.Valid.meets_doc standard valid).mpr fun node _ => ⟨fun e failing e' same => ?_, fun _ _ _ => nofun⟩
    cases same
    rcases Node.failures_cases failing with rfl | rfl | ⟨_, rfl⟩ <;> rfl
  rw [Tree.renderOn_result] at failed
  cases written : ((t.doc ctx.dialect.toStyle).write ctx).outcome (ctx.page reserved) with
  | mk result w =>
    rw [written] at failed
    cases result with
    | ok => cases failed
    | error cause =>
      cases failed
      refine Doc.write_error stated (fun bind p member => ?_) written
      rw [Tree.Valid.params_doc standard valid] at member
      exact bindable bind p (Tree.mem_writtenParams.mp member)

/-- What is found before anything is written, from the occurrences of the tree. -/
theorem Tree.firstValueless?_numbered {k : Kind} (t : Tree k) :
    (t.numbered .start).1.firstValueless? = (Occurrence.params 0 t.occurrences).findSome? Param.valueless? := by
  rw [Tree.firstValueless?_eq, t.params_numbered]
  rfl

theorem Tree.firstValueless?_numbered_eq_none {k : Kind} (t : Tree k) :
    (t.numbered .start).1.firstValueless? = none ↔ ∀ p ∈ t.params, ¬p.Unbindable := by
  rw [t.firstValueless?_numbered, Occurrence.findSome?_params, t.params_occurrences]

theorem Tree.render_of_valueless {k : Kind} {t : Tree k} {dialect : Dialect} {options : RenderOptions}
    (bind : options.mode = .bind) {v : Valueless} (first : (t.numbered .start).1.firstValueless? = some v) :
    (t.render dialect options).result = .error (.unresolved v) := by
  rw [t.render_bind dialect bind]
  dsimp only
  rw [first]

/-- When nothing was found, rendering does not fail for want of a value. -/
theorem Tree.Valid.render_error {k : Kind} {t : Tree k} (valid : t.Valid) {dialect : Dialect}
    (standard : dialect.toStyle.StandardRenderers) {options : RenderOptions}
    (bindable : options.mode = .bind → (t.numbered .start).1.firstValueless? = none) {e : Error}
    (failed : (t.render dialect options).result = .error e) : e.valueless? = none := by
  have standard' : (⟨dialect, options⟩ : Context).dialect.toStyle.StandardRenderers := standard
  cases mode : options.mode with
  | inline =>
    rw [t.render_inline dialect mode] at failed
    exact valid.renderOn_error standard' (fun bind => by cases mode.symm.trans bind) failed
  | bind =>
    rw [t.render_bind dialect mode] at failed
    dsimp only at failed
    rw [bindable mode] at failed
    exact Tree.Valid.renderOn_error (Tree.Valid.numbered valid .start) standard'
      (fun _ => (Tree.firstValueless?_eq_none _).mp (bindable mode)) failed

/-- The branches that refuse a parameter when it is written are never reached. -/
theorem Tree.Valid.render_ne_unbound {k : Kind} {t : Tree k} (valid : t.Valid) {dialect : Dialect}
    (standard : dialect.toStyle.StandardRenderers) (options : RenderOptions) (v : Valueless) :
    (t.render dialect options).result ≠ .error (.unbound v) := by
  intro failed
  cases first : (t.numbered .start).1.firstValueless? with
  | none => cases valid.render_error standard (fun _ => first) failed
  | some u =>
    cases mode : options.mode with
    | inline => cases valid.render_error standard (fun bind => by cases mode.symm.trans bind) failed
    | bind => cases (t.render_of_valueless mode first).symm.trans failed

theorem Error.unresolved_message (n : UInt32) :
    (Error.unresolved (.ordinal n)).message =
      "Unresolved parameter: " ++ ("parameter $" ++ toString n.toNat) ++ " has no value to bind" := by
  have joined : " has no value to bind" = " has no value" ++ " to bind" := rfl
  unfold Error.message Valueless.message
  dsimp only
  rw [joined]
  generalize toString n.toNat = number
  simp only [String.append_assoc]

/-- Binding values fails for want of a value exactly when an anonymous or numbered parameter without one
occurs in the tree, in a type name or elsewhere, whatever else is wrong with the tree. The message is about
the first such parameter in written order: by its own number, or for an anonymous one in an expression by
the number that it gets, which counts the literals and anonymous parameters replaced before it. Writing
itself never finds a parameter to which nothing can be bound. -/
theorem Tree.Valid.render_unresolved {k : Kind} {t : Tree k} (valid : t.Valid) (few : t.valueCount < UInt32.size)
    {dialect : Dialect} (standard : dialect.toStyle.StandardRenderers) (placeholder : Placeholder)
    (pretty : Bool) :
    let rendered := (t.render dialect ⟨.bind, placeholder, pretty⟩).result
    let fails := fun subject : String => ∃ v, rendered = .error (.unresolved v) ∧
      (Error.unresolved v).message = "Unresolved parameter: " ++ subject ++ " has no value to bind"
    ((∃ v, rendered = .error (.unresolved v) ∨ rendered = .error (.unbound v)) ↔
      ∃ p ∈ t.params, p.Unbindable) ∧
    (t.occurrences.filterMap Occurrence.param? = t.params ∧
      t.occurrences.filterMap Occurrence.loose? = t.loose ∧
      ∀ {before x after}, t.occurrences = before ++ x :: after →
        (∀ p ∈ before.filterMap Occurrence.param?, ¬p.Unbindable) →
        (∀ index, x = .fixed ⟨.ordinal index, none⟩ → fails ("parameter $" ++ toString index.toNat)) ∧
        (x = .anonymous none →
          fails ("parameter $" ++ toString ((before.filterMap Occurrence.loose?).length + 1))) ∧
        (x = .fixed ⟨.anonymous, none⟩ → fails "anonymous parameter")) ∧
    ∀ options v, (t.render dialect options).result ≠ .error (.unbound v) := by
  intro rendered fails
  refine ⟨⟨?_, ?_⟩, ⟨t.params_occurrences, t.loose_occurrences, ?_⟩,
    fun options v => valid.render_ne_unbound standard options v⟩
  · rintro ⟨v, failed | failed⟩
    · by_contra bindable
      have nothing : ∀ p ∈ t.params, ¬p.Unbindable := fun p member lost => bindable ⟨p, member, lost⟩
      cases valid.render_error standard (fun _ => t.firstValueless?_numbered_eq_none.mpr nothing) failed
    · exact absurd failed (valid.render_ne_unbound standard _ v)
  · rintro ⟨p, member, lost⟩
    cases first : (t.numbered .start).1.firstValueless? with
    | none => exact absurd lost (t.firstValueless?_numbered_eq_none.mp first p member)
    | some v => exact ⟨v, .inl (Tree.render_of_valueless rfl first)⟩
  · intro before x after split bindable
    have first : ∀ {v}, (x.becomes (Occurrence.reached 0 before)).valueless? = some v →
        rendered = .error (.unresolved v) := fun here => by
      refine Tree.render_of_valueless rfl ?_
      rw [t.firstValueless?_numbered, split]
      exact Occurrence.findSome?_params_first 0 after bindable here
    refine ⟨fun index here => ?_, fun here => ?_, fun here => ?_⟩
    · subst here
      exact ⟨.ordinal index, first rfl, Error.unresolved_message index⟩
    · subst here
      refine ⟨.ordinal _, first rfl, (Error.unresolved_message _).trans ?_⟩
      have counted : (before.filterMap Occurrence.loose?).length + 1 ≤ t.valueCount := by
        refine Nat.le_trans ?_ t.length_loose_le
        rw [← t.loose_occurrences, split, List.filterMap_append, List.length_append]
        exact Nat.add_le_add_left (Nat.le_add_left 1 _) _
      rw [Occurrence.toNat_next (by omega)]
    · subst here
      exact ⟨.anonymous, first rfl, by decide⟩

/-- An array that the standard dialect does not have, and an anonymous parameter without a value in front of
a numbered one. -/
def unresolvedRow : Tree .row :=
  Row.ofList [Expr.of .array (.node .array (.more (Expr.literal (.integer 1)) (.done .nil))),
    Expr.param .anonymous, Expr.param ⟨.ordinal 7, none⟩]

/-- The message is about the anonymous parameter, as the second one to be numbered, and not about the array. -/
theorem Tree.Valid.render_unresolved_row :
    let before : List Occurrence := [.literal (.integer 1)]
    unresolvedRow.Valid ∧ unresolvedRow.valueCount < UInt32.size ∧
      unresolvedRow.occurrences = before ++ .anonymous none :: [.fixed ⟨.ordinal 7, none⟩] ∧
      (∀ p ∈ before.filterMap Occurrence.param?, ¬p.Unbindable) ∧
      ∃ v, (unresolvedRow.render .standard ⟨.bind, .named, true⟩).result = .error (.unresolved v) ∧
        (Error.unresolved v).message =
          "Unresolved parameter: " ++ ("parameter $" ++ toString 2) ++ " has no value to bind" := by
  intro before
  have array : (Expr.of .array (.node .array (.more (Expr.literal (.integer 1)) (.done .nil)))).Valid :=
    Expr.array_valid.mpr ⟨Expr.literal_valid.mpr rfl, trivial⟩
  have anonymous : (Expr.param .anonymous).Valid := Expr.param_valid.mpr (Param.valid_none.mpr rfl)
  have ordinal : (Expr.param ⟨.ordinal 7, none⟩).Valid := Expr.param_valid.mpr (Param.valid_none.mpr (by decide))
  have valid : unresolvedRow.Valid := Row.node_valid.mpr ⟨array, anonymous, ordinal, trivial⟩
  have few : unresolvedRow.valueCount < UInt32.size := by decide
  have standard : Dialect.standard.toStyle.StandardRenderers := fun _ _ => rfl
  have listed : unresolvedRow.occurrences = before ++ .anonymous none :: [.fixed ⟨.ordinal 7, none⟩] := by rfl
  obtain ⟨_, ⟨_, _, first⟩, _⟩ := Tree.Valid.render_unresolved valid few standard .named true
  exact ⟨valid, few, listed, nofun, (first listed nofun).2.1 rfl⟩

end SqlTree

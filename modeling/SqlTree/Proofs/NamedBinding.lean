import SqlTree.Proofs.NameBook
import SqlTree.Proofs.TracedParams

namespace SqlTree

/-- The names that the caller gave to parameters, with the values. -/
def Tree.namings {k : Kind} (t : Tree k) : List (String × Option Literal) :=
  t.params.filterMap Param.naming?

def Source.naming? (s : Source) : Option (String × Option Literal) :=
  s.name?.map (·, s.value?)

theorem Source.Becomes.naming?_eq {s : Source} {p : Param} (becomes : s.Becomes p) :
    p.naming? = s.naming? := by
  rw [Param.naming?, Source.naming?, becomes.name, becomes.value]

theorem Source.namings_of_becomes {sources : List Source} {params : List Param}
    (become : List.Forall₂ Source.Becomes sources params) :
    params.filterMap Param.naming? = sources.filterMap Source.naming? := by
  induction become with
  | nil => rfl
  | cons first _ ih => rw [List.filterMap_cons, List.filterMap_cons, first.naming?_eq, ih]

/-- Literals have no names, so the names of the sources are those of the parameters. -/
theorem Tree.namings_sources {k : Kind} (t : Tree k) :
    t.sources.filterMap Source.naming? = t.namings := by
  have joins : Visitor.sources.Joins Visitor.collected
      fun ss ps => ss.filterMap Source.naming? = ps.filterMap Param.naming? :=
    { left := Visitor.sources_lawful
      right := Visitor.collected_lawful
      unit := rfl
      combine := fun left right =>
        List.filterMap_append.trans ((congrArg₂ (· ++ ·) left right).trans List.filterMap_append.symm)
      enter := fun {k} form below inside => by
        cases form.numbered with
        | literal =>
          match below with
          | .one (.literal value) .nil =>
            change (if value.isNull then [] else [Source.literal value]).filterMap Source.naming? = []
            split <;> rfl
        | param => exact inside
        | typeName base dims zone =>
          have visited := Visitor.collected_lawful.visit_node (.typeName base dims zone) below
          have owned : (((Tree.node (.typeName base dims zone) below).params).map Source.param).filterMap
              Source.naming? = (Tree.node (.typeName base dims zone) below).params.filterMap
                Param.naming? := by
            rw [List.filterMap_map]
            rfl
          exact owned.trans (congrArg (List.filterMap Param.naming?) visited)
        | plain other =>
          by_cases leaf : k = .param
          · subst leaf
            cases form
            cases below
            rfl
          · rw [Visitor.sources_enter other leaf, Visitor.params_enter _ _ _ _ _ leaf]
            exact inside }
  exact joins.visit t

/-- Numbering leaves the caller's names and their values alone. -/
theorem Tree.namings_numbered {k : Kind} (t : Tree k) (n : Numbering) :
    (t.numbered n).1.namings = t.namings :=
  (Source.namings_of_becomes (t.sources_numbered n)).trans t.namings_sources

theorem Tree.callerNames_eq_namings {k : Kind} (t : Tree k) : t.callerNames = t.namings.map (·.1) := by
  have each : ∀ p : Param, p.naming?.map (·.1) = p.name? := by
    intro p
    cases named : p.name? <;> simp [Param.naming?, named]
  rw [Tree.callerNames, Tree.namings, List.map_filterMap]
  simp only [each]

theorem Tree.renderOn_ok_of_writes {k : Kind} {t : Tree k} {ctx : Context} {reserved : List String}
    {w : Writer} (writes : (t.doc ctx.dialect.toStyle).Writes ctx (ctx.page reserved) w) :
    (t.renderOn ctx reserved).result = .ok w.finish := by
  rw [Tree.renderOn_result, writes]
  rfl

/-- A tree is rendered with bound values when something can be bound to all parameters of the numbered tree
and its document can be written. -/
theorem Tree.render_bind_ok_iff {k : Kind} (t : Tree k) (dialect : Dialect) (placeholder : Placeholder)
    (pretty : Bool) :
    let tree := (t.numbered .start).1
    let ctx : Context := ⟨dialect, ⟨.bind, placeholder, pretty⟩⟩
    (∃ text, (t.render dialect ctx.options).result = .ok text) ↔
      tree.firstValueless? = none ∧ ∃ text, (tree.renderOn ctx tree.callerNames).result = .ok text := by
  intro tree ctx
  rw [t.render_bind dialect rfl]
  dsimp only
  cases tree.firstValueless? with
  | some p => exact ⟨nofun, nofun⟩
  | none => exact ⟨fun written => ⟨rfl, written⟩, fun both => both.2⟩

/-- With named placeholders, the document of a valid tree can be written exactly when it meets no obstacle
and the caller's names agree on their values. -/
theorem Tree.Valid.writes_named_iff {k : Kind} {t : Tree k} (valid : t.Valid) (ctx : Context)
    (standard : ctx.dialect.toStyle.StandardRenderers) (bind : ctx.options.mode = .bind)
    (named : ctx.options.placeholder = .named) :
    (∃ w, (t.doc ctx.dialect.toStyle).Writes ctx (ctx.page t.callerNames) w) ↔
      (t.doc ctx.dialect.toStyle).obstacle? ctx = none ∧ NamesAgree t.namings := by
  have written := Tree.Valid.params_doc standard valid
  constructor
  · rintro ⟨w, writes⟩
    obtain ⟨entries, _, run⟩ := writes.run bind named
    rw [written] at run
    -- a name of the tree is a name of an entry, with the same value
    have entered : ∀ a ∈ t.namings, ∃ entry ∈ entries, entry.name = some a.1 ∧ entry.value = a.2 := by
      intro a member
      obtain ⟨p, owned, naming⟩ := List.mem_filterMap.mp member
      obtain ⟨name, given, rfl⟩ := Option.map_eq_some_iff.mp naming
      obtain ⟨entry, here, namedAs⟩ :=
        exists_of_forall₂ run.namedAs.flip (Tree.mem_writtenParams.mpr owned)
      exact ⟨entry, here, namedAs.given name given, namedAs.value⟩
    refine ⟨writes.clear bind, fun a first b second same => ?_⟩
    obtain ⟨x, atX, nameX, valueX⟩ := entered a first
    obtain ⟨y, atY, nameY, valueY⟩ := entered b second
    have equal := run.agree atX atY (by rw [nameX, nameY, same])
    rwa [valueX, valueY] at equal
  · rintro ⟨clear, agree⟩
    have listed : ∀ p ∈ (t.doc ctx.dialect.toStyle).params, ∀ a ∈ p.naming?, a ∈ t.namings := by
      intro p member a naming
      rw [written] at member
      exact List.mem_filterMap.mpr ⟨p, Tree.mem_writtenParams.mp member, naming⟩
    have fits : (ctx.page t.callerNames).book.Fits t.namings := by
      refine ⟨fun a member => ?_, fun a _ bound known => by cases known⟩
      change a.1 ∈ [] ++ t.callerNames
      rw [List.nil_append, t.callerNames_eq_namings]
      exact List.mem_map_of_mem member
    obtain ⟨w, writes, _⟩ := Doc.writes_of_fits bind named agree listed clear fits
    exact ⟨w, writes⟩

/-- Named placeholders are possible exactly when others are and no name that the caller gave has two values.
Then every entry has a name, entries of one name have equal values, and the names that are generated differ
from each other and from every name that the caller gave anywhere in the tree. -/
theorem Tree.Valid.render_named {k : Kind} {t : Tree k} (valid : t.Valid) {dialect : Dialect}
    (standard : dialect.toStyle.StandardRenderers) (pretty : Bool) :
    let rendered := fun placeholder => (t.render dialect ⟨.bind, placeholder, pretty⟩).result
    ((∃ text, rendered .named = .ok text) ↔
      (∃ text, rendered .positional = .ok text) ∧ NamesAgree t.namings) ∧
    ∀ {text : SqlText}, rendered .named = .ok text →
      (∀ entry ∈ text.params, entry.name.isSome = true) ∧
      (∀ a ∈ text.params, ∀ b ∈ text.params, a.name = b.name → (a.value == b.value) = true) ∧
      ∃ tree?, t.prepare = .ok tree? ∧
        let params := (tree?.getD t).writtenParams dialect.nulls
        List.Forall₂ Param.NamedAs params text.params ∧
        (BindParam.generatedNames params text.params).Nodup ∧
        ∀ name ∈ BindParam.generatedNames params text.params, name ∉ t.callerNames := by
  intro rendered
  have validNow := Tree.Valid.numbered valid .start
  have sameNames := t.namings_numbered .start
  constructor
  · have named := t.render_bind_ok_iff dialect .named pretty
    have positional := t.render_bind_ok_iff dialect .positional pretty
    have plain := (t.numbered .start).1.renderOn_ok_iff ⟨dialect, ⟨.bind, .positional, pretty⟩⟩ nofun
      (t.numbered .start).1.callerNames
    have possible := Tree.Valid.writes_named_iff validNow ⟨dialect, ⟨.bind, .named, pretty⟩⟩ standard rfl rfl
    rw [sameNames] at possible
    dsimp only at named positional
    rw [named, positional, plain, and_assoc]
    refine and_congr_right fun _ => ?_
    refine Iff.trans ⟨fun ⟨text, written⟩ => ?_, fun ⟨w, writes⟩ => ?_⟩ possible
    · obtain ⟨w, writes, _⟩ := Tree.renderOn_ok written
      exact ⟨w, writes⟩
    · exact ⟨_, Tree.renderOn_ok_of_writes writes⟩
  · intro text success
    obtain ⟨tree?, prepared, numbered, written⟩ := Tree.render_bind_ok rfl success
    obtain ⟨w, writes, rfl⟩ := Tree.renderOn_ok written
    rw [numbered] at writes
    obtain ⟨entries, grown, run⟩ := writes.run rfl rfl
    obtain rfl : w.params = entries := grown
    rw [Tree.Valid.params_doc standard validNow] at run
    obtain ⟨distinct, free⟩ := run.generated
    refine ⟨fun entry member => ?_, fun a first b second => run.agree first second, tree?, prepared, ?_⟩
    · obtain ⟨name, _, named, _⟩ := run.booked member
      exact Option.isSome_iff_exists.mpr ⟨name, named⟩
    · rw [numbered]
      refine ⟨run.namedAs, distinct, fun name member => ?_⟩
      have unreserved := (free name member).1
      rw [t.callerNames_eq_namings, ← sameNames, ← Tree.callerNames_eq_namings]
      simpa [Writer.book, Context.page, Writer.reserve, Writer.blank, numbered] using unreserved

/-- A literal, a numbered parameter, and a name that would be generated first, twice with values that are
equal but not written alike. -/
def renamedRow : Tree .row :=
  .node .row
    (.more (Expr.literal (.integer 5)) (.more (Expr.param ⟨.ordinal 7, some (.string "s")⟩)
      (.more (Expr.param ⟨.named "p1", some (.decimal ⟨false, 10, 1⟩)⟩)
        (.more (Expr.param ⟨.named "p1", some (.decimal ⟨false, 100, 2⟩)⟩) (.done .nil)))))

/-- The generated names leave `p1` to the caller, though it comes last. -/
theorem Tree.Valid.render_named_row :
    let text : SqlText := ⟨"(:p2, :p3, :p1, :p1)",
      [⟨some "p2", some (.integer 5)⟩, ⟨some "p3", some (.string "s")⟩,
        ⟨some "p1", some (.decimal ⟨false, 10, 1⟩)⟩, ⟨some "p1", some (.decimal ⟨false, 100, 2⟩)⟩]⟩
    renamedRow.Valid ∧
      (renamedRow.render .standard ⟨.bind, .named, false⟩).result = .ok text ∧
      NamesAgree renamedRow.namings ∧
      (∀ a ∈ text.params, ∀ b ∈ text.params, a.name = b.name → (a.value == b.value) = true) ∧
      ∃ tree?, renamedRow.prepare = .ok tree? ∧
        ∀ name ∈ BindParam.generatedNames ((tree?.getD renamedRow).writtenParams Dialect.standard.nulls)
          text.params, name ∉ renamedRow.callerNames := by
  intro text
  have ordinal : (Expr.param ⟨.ordinal 7, some (.string "s")⟩).Valid :=
    Expr.param_valid.mpr (Param.valid_some.mpr ⟨by decide, rfl⟩)
  have named (d : Decimal) : (Expr.param ⟨.named "p1", some (.decimal d)⟩).Valid :=
    Expr.param_valid.mpr (Param.valid_some.mpr ⟨by decide, rfl⟩)
  have valid : renamedRow.Valid :=
    Row.node_valid.mpr ⟨Expr.literal_valid.mpr rfl, ordinal, named _, named _, trivial⟩
  have standard : Dialect.standard.toStyle.StandardRenderers := fun _ _ => rfl
  have written : (renamedRow.render .standard ⟨.bind, .named, false⟩).result = .ok text := by rfl
  obtain ⟨possible, binding⟩ := Tree.Valid.render_named valid standard false
  obtain ⟨_, equal, tree?, prepared, _, _, apart⟩ := binding written
  exact ⟨valid, written, (possible.mp ⟨text, written⟩).2, equal, tree?, prepared, apart⟩

end SqlTree

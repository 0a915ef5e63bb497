import SqlTree.Proofs.Needs
import SqlTree.Proofs.Traversal
import SqlTree.Proofs.Valid

namespace SqlTree

namespace Node

/-- The constructs that a node itself is written with. -/
def constructs : Node → List Construct
  | ⟨_, .node form below⟩ => form.constructs below.contents

/-- The errors with which a node itself cannot be written. -/
def failures (style : Style) : Node → List Error
  | ⟨_, .node form below⟩ => form.failures style below.contents

/-- A SELECT has items and a common table expression has a body. Where TOP stands for the row window, a
SELECT has no offset and a set operation has no row window. -/
def Whole (pagination : PaginationStyle) : Node → Prop
  | ⟨_, .node .select below⟩ =>
    let s := SelectParts.ofFill below.contents
    s.items ≠ [] ∧ (pagination = .top → ∀ w ∈ s.limitOffset, w.window.offset = none)
  | ⟨_, .node (.composite _) below⟩ =>
    pagination = .top → ∀ w ∈ below.contents.2.2.1, w.window.limit = none ∧ w.window.offset = none
  | ⟨_, .node (.cte _ _ _) below⟩ => below.contents.1.isSome = true
  | _ => True

/-- The demands of a node itself have a property. -/
def Meets (P : Demand → Prop) (style : Style) (node : Node) : Prop :=
  (∀ e ∈ node.failures style, P (.never e)) ∧
    (node.failures style = [] → ∀ c ∈ node.constructs, P (.construct c))

theorem topFailures_eq_nil (style : Style) (window : Option LimitOffset) :
    style.topFailures window = [] ↔ (style.pagination = .top → ∀ w ∈ window, w.offset = none) := by
  unfold Style.topFailures
  cases style.pagination <;> rcases window with _ | ⟨_, _ | _⟩ <;> simp

theorem compositeFailures_eq_nil (style : Style) (window : Option LimitOffset) :
    style.compositeFailures window = [] ↔
      (style.pagination = .top → ∀ w ∈ window, w.limit = none ∧ w.offset = none) := by
  unfold Style.compositeFailures
  cases style.pagination <;> rcases window with _ | ⟨_ | _, _ | _⟩ <;> simp

/-- A node fails by itself exactly when it is not whole. -/
theorem failures_eq_nil (style : Style) (node : Node) :
    node.failures style = [] ↔ node.Whole style.pagination := by
  obtain ⟨k, form, below⟩ := node
  cases form with
  | select =>
    change style.topFailures ((SelectParts.ofFill below.contents).limitOffset.map (·.window)) ++
      (if (SelectParts.ofFill below.contents).items.isEmpty then [Error.invalid .emptySelect] else []) = [] ↔ _
    rw [List.append_eq_nil_iff, topFailures_eq_nil, and_comm]
    refine and_congr ?_ (by simp)
    cases (SelectParts.ofFill below.contents).items <;> simp
  | composite ops =>
    change style.compositeFailures (below.contents.2.2.1.map (·.window)) = [] ↔ _
    rw [compositeFailures_eq_nil]
    simp [Whole]
  | cte name columns m =>
    change (if below.contents.1.isNone then [Error.invalid (.noBody name.value)] else []) = [] ↔
      below.contents.1.isSome = true
    cases below.contents.1 <;> simp
  | _ => exact ⟨fun _ => trivial, fun _ => rfl⟩

/-- The errors of nodes that fail by themselves are about a row window for which TOP cannot stand, or about
a part that is missing. -/
theorem failures_cases {style : Style} {node : Node} {e : Error} (failing : e ∈ node.failures style) :
    e = .offsetWithTop style.name ∨ e = .limitWithTop style.name ∨ ∃ cause, e = .invalid cause := by
  obtain ⟨k, form, below⟩ := node
  cases form with
  | select =>
    rcases List.mem_append.mp failing with window | empty
    · unfold Style.topFailures at window
      split at window
      · exact .inl (List.mem_singleton.mp window)
      · cases window
    · split at empty
      · exact .inr (.inr ⟨_, List.mem_singleton.mp empty⟩)
      · cases empty
  | composite ops =>
    change e ∈ style.compositeFailures (below.contents.2.2.1.map (·.window)) at failing
    unfold Style.compositeFailures at failing
    split at failing
    · exact .inl (List.mem_singleton.mp failing)
    · exact .inr (.inl (List.mem_singleton.mp failing))
    · cases failing
  | cte cteName columns m =>
    change e ∈ (if below.contents.1.isNone then [Error.invalid (.noBody cteName.value)] else []) at failing
    split at failing
    · exact .inr (.inr ⟨_, List.mem_singleton.mp failing⟩)
    · cases failing
  | _ => cases failing

end Node

/-- The constructs of a form depend on which places are filled, not on what fills them. -/
theorem Form.constructs_eq_of_shape {α β : Kind → Type} {k : Kind} (form : Form k)
    {parts : Fill α form.slots} {others : Fill β form.slots}
    (same : Fill.SameShape form.slots parts others) : form.constructs parts = form.constructs others := by
  have tail : ∀ {γ δ ε ζ : Type} {a : Option γ} {b : Option δ} {c : Option ε} {d : Option ζ},
      a.isSome = b.isSome → c.isSome = d.isSome → Form.callConstructs a c = Form.callConstructs b d :=
    fun left right => by rw [Form.callConstructs, Form.callConstructs, left, right]
  cases form with
  | call => exact tail (isSome_of_rel same.2.1) (isSome_of_rel same.2.2.1)
  | callStar => exact tail (isSome_of_rel same.1) (isSome_of_rel same.2.1)
  | _ => rfl

variable {P : Demand → Prop} {style : Style}

/-- A row window has no document of its own, so nothing is lost where it is left out. -/
theorem Tree.drawn_meets (standard : style.StandardRenderers) {k : Kind} (t : Tree k) :
    Drawn.Meets P ⟨t, t.doc style⟩ ↔ (t.doc style).Meets P := by
  cases k
  case limitOffset =>
    cases t with
    | node form below =>
      cases form
      rw [Tree.doc_node standard]
      exact ⟨fun _ => Doc.meets_empty, fun _ => trivial⟩
  all_goals exact Iff.rfl

/-- The demands of a tree's document are those of its nodes. -/
theorem Tree.Valid.meets_doc (standard : style.StandardRenderers) {k : Kind} {t : Tree k} (valid : t.Valid) :
    (t.doc style).Meets P ↔ ∀ node ∈ t.nodes, node.Meets P style := by
  refine Tree.Valid.induction_below
    (Q := fun t => ((t.doc style).Meets P ↔ ∀ node ∈ t.nodes, node.Meets P style))
    (fun form below _ shape inside => ?_) valid
  have checked := (form.check_eq_of_shape (below.drawn_shape style)).trans shape
  have split : Render.DemandsSplit P style form (below.drawn style) :=
    Render.meets_standard standard form (below.drawn style) checked
  have others : Fill.All (fun part => part.Meets P) form.slots (below.drawn style) ↔
      ∀ node ∈ below.nodes, node.Meets P style := by
    rw [Forest.all_drawn, below.forall_nodes]
    exact Fill.All.congr (inside.imp fun {_ t} same => (Tree.drawn_meets standard t).trans same)
  unfold Render.DemandsSplit at split
  rw [below.drawn_trees style, form.constructs_eq_of_shape (below.drawn_shape style), others] at split
  rw [Tree.doc_node standard, Tree.nodes, List.forall_mem_cons]
  exact split.trans and_assoc.symm

theorem Demand.unmet?_construct (dialect : Dialect) (c : Construct) :
    (Demand.construct c).unmet? dialect = none ↔ dialect.capabilities.supports c.feature = true := by
  unfold Demand.unmet?
  split <;> simp_all

/-- Where values are written, a document meets no obstacle when all its demands are met. -/
theorem Doc.obstacle?_eq_none {ctx : Context} (inline : ctx.options.mode = .inline) (d : Doc) :
    d.obstacle? ctx = none ↔ d.Meets fun x => x.unmet? ctx.dialect = none := by
  unfold Doc.obstacle? Doc.Meets
  rw [inline, List.findSome?_eq_none_iff]

/-- The demands of a node are met when the dialect has its constructs and the node is whole. -/
theorem Node.meets_dialect (dialect : Dialect) (node : Node) :
    node.Meets (fun x => x.unmet? dialect = none) dialect.toStyle ↔
      (∀ c ∈ node.constructs, dialect.capabilities.supports c.feature = true) ∧
        node.Whole dialect.pagination := by
  rw [← node.failures_eq_nil dialect.toStyle, Node.Meets]
  simp only [Demand.unmet?_construct]
  constructor
  · rintro ⟨free, needed⟩
    have whole : node.failures dialect.toStyle = [] :=
      List.eq_nil_iff_forall_not_mem.mpr fun e member => nomatch free e member
    exact ⟨needed whole, whole⟩
  · rintro ⟨needed, whole⟩
    rw [whole]
    exact ⟨nofun, fun _ => needed⟩

/-- A construct that is reported is one that a node needs and the dialect does not have. -/
theorem Tree.Valid.meets_reported {k : Kind} {t : Tree k} (valid : t.Valid) {dialect : Dialect}
    (standard : dialect.toStyle.StandardRenderers) (c : Construct) (name : String) :
    (t.doc dialect.toStyle).Meets fun x => x.unmet? dialect = some (.unsupported c name) →
      name = dialect.name ∧ dialect.capabilities.supports c.feature = false ∧
        ∃ node ∈ t.nodes, c ∈ node.constructs := by
  refine (Tree.Valid.meets_doc standard valid).mpr fun node member => ⟨fun e failing reported => ?_,
    fun _ needed owned reported => ?_⟩
  · obtain rfl : e = .unsupported c name := Option.some.inj reported
    rcases Node.failures_cases failing with other | other | ⟨_, other⟩ <;> cases other
  · simp only [Demand.unmet?] at reported
    split at reported
    · cases reported
    · rename_i lacking
      cases reported
      exact ⟨rfl, by simpa using lacking, node, member, owned⟩

/-- Writing a tree with its values in the text succeeds exactly when, at every depth, the dialect has the
constructs that the nodes need and the nodes are whole. When a construct is reported, some node needs it
and the dialect does not have it. -/
theorem Tree.Valid.render_inline_iff {k : Kind} {t : Tree k} (valid : t.Valid) {dialect : Dialect}
    (standard : dialect.toStyle.StandardRenderers) {options : RenderOptions} (inline : options.mode = .inline) :
    ((∃ text, (t.render dialect options).result = .ok text) ↔
      ∀ node ∈ t.nodes, (∀ c ∈ node.constructs, dialect.capabilities.supports c.feature = true) ∧
        node.Whole dialect.pagination) ∧
    ∀ {c : Construct} {name : String}, (t.render dialect options).result = .error (.unsupported c name) →
      name = dialect.name ∧ dialect.capabilities.supports c.feature = false ∧
        ∃ node ∈ t.nodes, c ∈ node.constructs := by
  have unbound : options.mode = .bind → options.placeholder ≠ .named := fun bind => by
    rw [inline] at bind
    cases bind
  rw [t.render_inline dialect inline]
  constructor
  · rw [t.renderOn_ok_iff ⟨dialect, options⟩ unbound, Doc.obstacle?_eq_none inline,
      Tree.Valid.meets_doc standard valid]
    exact forall₂_congr fun node _ => node.meets_dialect dialect
  · intro c name failed
    have stop := (t.renderOn_error_iff ⟨dialect, options⟩ unbound [] _).mp failed
    unfold Doc.obstacle? at stop
    obtain ⟨x, member, reported⟩ := List.exists_of_findSome?_eq_some stop
    rw [inline] at member
    exact Tree.Valid.meets_reported valid standard c name x member reported

/-- `c AS MATERIALIZED (SELECT ARRAY[1])` -/
def materializedCte : Tree .cte :=
  .node (.cte ⟨"c", .none⟩ [] .materialized)
    (.present (Query.of .select (SelectParts.toTree
      { distinct := none
        items := [.node (.aliased none)
          (.one (Expr.of .array (.node .array (.more (Expr.literal (.integer 1)) (.done .nil)))) .nil)]
        source := none, joins := [], filter := none, groupBy := none, having := none, windows := []
        orderBy := none, limitOffset := none, locking := none })) .nil)

/-- A dialect with all constructs writes it, the standard one reports the materialization. -/
theorem Tree.Valid.render_inline_iff_cte :
    let full : Dialect := { Dialect.standard with capabilities := .all }
    materializedCte.Valid ∧
      (materializedCte.render full .inline).result = .ok ⟨"c AS MATERIALIZED (SELECT ARRAY[1])", []⟩ ∧
      (∀ node ∈ materializedCte.nodes, (∀ c ∈ node.constructs, full.capabilities.supports c.feature = true) ∧
        node.Whole full.pagination) ∧
      (materializedCte.render .standard .inline).result = .error (.unsupported .materialized "ANSI") ∧
      ∃ node ∈ materializedCte.nodes, .materialized ∈ node.constructs := by
  intro full
  have array : (Expr.of .array (.node .array (.more (Expr.literal (.integer 1)) (.done .nil)))).Valid :=
    Expr.array_valid.mpr ⟨Expr.literal_valid.mpr rfl, trivial⟩
  have item := SelectItem.ofExpr_valid.mpr array
  have valid : materializedCte.Valid := Cte.make_valid.mpr
    ⟨⟨rfl, nofun⟩, Query.of_valid.mpr ((Form.select.plain_valid trivial rfl).mpr ⟨item, trivial⟩)⟩
  have written : (materializedCte.render full .inline).result =
      .ok ⟨"c AS MATERIALIZED (SELECT ARRAY[1])", []⟩ := by rfl
  have refused : (materializedCte.render .standard .inline).result =
      .error (.unsupported .materialized "ANSI") := by rfl
  have inline : RenderOptions.inline.mode = .inline := rfl
  have plain : full.toStyle.StandardRenderers := fun _ _ => rfl
  have standard : Dialect.standard.toStyle.StandardRenderers := fun _ _ => rfl
  exact ⟨valid, written, (Tree.Valid.render_inline_iff valid plain inline).1.mp ⟨_, written⟩, refused,
    ((Tree.Valid.render_inline_iff valid standard inline).2 refused).2.2⟩

end SqlTree

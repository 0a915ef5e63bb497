import Mathlib.Algebra.BigOperators.Group.List.Basic
import Mathlib.Algebra.FreeMonoid.Basic
import SqlTree.Build.Expression
import SqlTree.Proofs.LeafEdit
import SqlTree.Proofs.Traversal
import SqlTree.Proofs.WrittenParams

/-!
Visits that ask only the leaves. Whatever operation joins the results, a visit comes to the results of
the leaves joined from left to right, with none left out and none asked twice; and left to right is the
order in which the leaves are written.
-/
namespace SqlTree

/-- Gives the value of a leaf at the leaf, and at all other nodes the result of the walk below. -/
def Visitor.leafwise {ρ : Type} (unit : ρ) (combine : ρ → ρ → ρ) (value : Node → ρ) : Visitor Id ρ where
  unit := unit
  combine := combine
  enter := fun {k} t below => if k.isLeaf then value ⟨k, t⟩ else below

theorem Visitor.Lawful.foldr_append {ρ : Type} {v : Visitor Id ρ} (lawful : v.Lawful) (first second : List ρ) :
    (first ++ second).foldr v.combine v.unit =
      v.combine (first.foldr v.combine v.unit) (second.foldr v.combine v.unit) := by
  induction first with
  | nil => exact (lawful.unit_left _).symm
  | cons r rest ih => rw [List.cons_append, List.foldr_cons, List.foldr_cons, ih, lawful.assoc]

section Joining

variable {ρ : Type} {unit : ρ} {combine : ρ → ρ → ρ} {value : Node → ρ}
  (lawful : (Visitor.leafwise unit combine value).Lawful)

include lawful

mutual

/-- A visit joins the values of the leaves from left to right. -/
theorem Tree.visit_leafwise : {k : Kind} → (t : Tree k) →
    t.visit (.leafwise unit combine value) = (t.leaves.map value).foldr combine unit
  | k, .node form below => by
    rw [lawful.visit_node]
    by_cases leaf : k.isLeaf = true
    · have itself : (Tree.node form below).leaves = [⟨k, .node form below⟩] := if_pos leaf
      rw [itself]
      exact (if_pos leaf).trans (lawful.unit_right _).symm
    · have others : (Tree.node form below).leaves = below.leaves := if_neg leaf
      rw [others]
      exact (if_neg leaf).trans (Forest.total_leafwise below)

theorem Forest.total_leafwise : {slots : List Slot} → (f : Forest slots) →
    f.total (.leafwise unit combine value) = (f.leaves.map value).foldr combine unit
  | _, .nil => rfl
  | _, .one t rest => by
    rw [lawful.total_one, Tree.visit_leafwise t, Forest.total_leafwise rest, Forest.leaves, List.map_append]
    exact (lawful.foldr_append _ _).symm
  | _, .absent rest => Forest.total_leafwise rest
  | _, .present t rest => by
    rw [lawful.total_present, Tree.visit_leafwise t, Forest.total_leafwise rest, Forest.leaves,
      List.map_append]
    exact (lawful.foldr_append _ _).symm
  | _, .done rest => Forest.total_leafwise rest
  | _, .more t rest => by
    rw [lawful.total_more, Tree.visit_leafwise t, Forest.total_leafwise rest, Forest.leaves, List.map_append]
    exact (lawful.foldr_append _ _).symm
  | _, .noArm rest => Forest.total_leafwise rest
  | _, .arm c t rest => by
    rw [lawful.total_arm, Tree.visit_leafwise c, Tree.visit_leafwise t, Forest.total_leafwise rest,
      Forest.leaves, List.append_assoc, List.map_append, List.map_append]
    exact ((lawful.foldr_append _ _).trans (congrArg _ (lawful.foldr_append _ _))).symm

end

end Joining

theorem Form.slots_of_isLeaf {k : Kind} (form : Form k) (leaf : k.isLeaf = true) : form.slots = [] := by
  cases form <;> first | rfl | simp [Kind.isLeaf] at leaf

theorem Forest.nodes_of_slots_nil {slots : List Slot} (f : Forest slots) (none : slots = []) :
    f.nodes = [] := by
  subst none
  cases f
  rfl

mutual

/-- The leaves are the nodes of the leaf kinds, in their order. -/
theorem Tree.leaves_eq_filter : {k : Kind} → (t : Tree k) →
    t.leaves = t.nodes.filter fun node => node.1.isLeaf
  | k, .node form below => by
    by_cases leaf : k.isLeaf = true
    · have alone := below.nodes_of_slots_nil (form.slots_of_isLeaf leaf)
      simp [Tree.leaves, Tree.nodes, leaf, alone]
    · simp [Tree.leaves, Tree.nodes, leaf, Forest.leaves_eq_filter below]

theorem Forest.leaves_eq_filter : {slots : List Slot} → (f : Forest slots) →
    f.leaves = f.nodes.filter fun node => node.1.isLeaf
  | _, .nil => rfl
  | _, .one t rest => by
    simp [Forest.leaves, Forest.nodes, Tree.leaves_eq_filter t, Forest.leaves_eq_filter rest]
  | _, .absent rest => Forest.leaves_eq_filter rest
  | _, .present t rest => by
    simp [Forest.leaves, Forest.nodes, Tree.leaves_eq_filter t, Forest.leaves_eq_filter rest]
  | _, .done rest => Forest.leaves_eq_filter rest
  | _, .more t rest => by
    simp [Forest.leaves, Forest.nodes, Tree.leaves_eq_filter t, Forest.leaves_eq_filter rest]
  | _, .noArm rest => Forest.leaves_eq_filter rest
  | _, .arm c t rest => by
    simp [Forest.leaves, Forest.nodes, Tree.leaves_eq_filter c, Tree.leaves_eq_filter t,
      Forest.leaves_eq_filter rest]

end

/-- Leaves are written as parameters that tell them apart. -/
def Style.marked (style : Style) (mark : {k : Kind} → Form k → Param) : Style :=
  { style with
    renderer := fun {k} form doc =>
      if k.isLeaf then .param (mark form) .empty else style.renderer form doc }

/-- The marks of the leaves that have a text of their own: a row window is written by its query. -/
def Node.marks (mark : {k : Kind} → Form k → Param) (leaves : List Node) : List Param :=
  (leaves.filter fun leaf => leaf.1 ≠ .limitOffset).map fun leaf => mark leaf.2.form

theorem Node.marks_append (mark : {k : Kind} → Form k → Param) (first second : List Node) :
    Node.marks mark (first ++ second) = Node.marks mark first ++ Node.marks mark second := by
  simp [Node.marks]

theorem Form.isDoubled_explicit {nulls : NullSorting} (explicit : nulls.explicit = true) {k : Kind}
    (form : Form k) : form.isDoubled nulls = false := by
  cases form with
  | orderItem dir placement =>
    cases placement <;> simp [Form.isDoubled, NullSorting.emulated, explicit, Option.filter]
  | _ => rfl

section Marking

variable {style : Style} (mark : {k : Kind} → Form k → Param)

theorem Tree.doc_marked (standard : style.StandardRenderers) {k : Kind} (form : Form k)
    (below : Forest form.slots) (other : k.isLeaf = false) :
    (Tree.node form below).doc (style.marked mark) =
      Render.standard (style.marked mark) form (below.drawn (style.marked mark)) := by
  have own : (style.marked mark).renderer form = style.renderer form := by
    funext doc
    simp [Style.marked, other]
  exact (congrFun own _).trans (standard form _)

mutual

/-- The marks are written in the order of the leaves, each once. -/
theorem Tree.Valid.marks_drawn (standard : style.StandardRenderers)
    (explicit : style.nulls.explicit = true) : {k : Kind} → {t : Tree k} → t.Valid →
    (t.drawn (style.marked mark)).params = Node.marks mark t.leaves
  | k, .node form below, valid => by
    obtain ⟨_, shape, others⟩ := valid
    by_cases leaf : k.isLeaf = true
    · have itself : (Tree.node form below).leaves = [⟨k, .node form below⟩] := if_pos leaf
      have marked : (Tree.node form below).doc (style.marked mark) = .param (mark form) .empty :=
        if_pos leaf
      rw [itself]
      by_cases window : k = .limitOffset
      · subst window
        rfl
      · rw [Drawn.params_of_ne _ window, Tree.drawn, marked]
        simp [Node.marks, window, Tree.form]
    -- other nodes add no parameters of their own and pass on those below them
    · have same : (Tree.node form below).leaves = below.leaves := if_neg leaf
      have other : k.isLeaf = false := by simpa using leaf
      have window : k ≠ .limitOffset := by rintro rfl; cases other
      have param : k ≠ .param := by rintro rfl; cases other
      have checked := (form.check_eq_of_shape (below.drawn_shape (style.marked mark))).trans shape
      rw [Drawn.params_of_ne _ window, Tree.drawn, Tree.doc_marked mark standard form below other,
        Render.params_standard _ form _ checked param, same, ← Forest.Valid.marks_drawn standard explicit others]
      exact if_neg (by simp [Style.marked, form.isDoubled_explicit explicit])

theorem Forest.Valid.marks_drawn (standard : style.StandardRenderers)
    (explicit : style.nulls.explicit = true) : {slots : List Slot} → {f : Forest slots} → f.Valid →
    Fill.params slots (f.drawn (style.marked mark)) = Node.marks mark f.leaves
  | _, .nil, _ => rfl
  | _, .one t rest, valid => by
    rw [Forest.leaves, Node.marks_append, ← Tree.Valid.marks_drawn standard explicit valid.1,
      ← Forest.Valid.marks_drawn standard explicit valid.2]
    rfl
  | _, .absent rest, valid => Forest.Valid.marks_drawn standard explicit (f := rest) valid
  | _, .present t rest, valid => by
    rw [Forest.leaves, Node.marks_append, ← Tree.Valid.marks_drawn standard explicit valid.1,
      ← Forest.Valid.marks_drawn standard explicit valid.2, Forest.drawn_present, Fill.params, Option.toList_some,
      List.flatMap_singleton]
    rfl
  | _, .done rest, valid => Forest.Valid.marks_drawn standard explicit (f := rest) valid
  | _, .more t rest, valid => by
    rw [Forest.leaves, Node.marks_append, ← Tree.Valid.marks_drawn standard explicit valid.1,
      ← Forest.Valid.marks_drawn standard explicit valid.2, Forest.drawn_more, Fill.params, List.flatMap_cons,
      List.append_assoc]
    rfl
  | _, .noArm rest, valid => Forest.Valid.marks_drawn standard explicit (f := rest) valid
  | _, .arm c t rest, valid => by
    rw [Forest.leaves, Node.marks_append, Node.marks_append, ← Tree.Valid.marks_drawn standard explicit valid.1,
      ← Tree.Valid.marks_drawn standard explicit valid.2.1,
      ← Forest.Valid.marks_drawn standard explicit valid.2.2, Forest.drawn_arm, Fill.params,
      List.flatMap_cons, List.append_assoc]
    rfl

end

end Marking

theorem foldr_or_eq_findSome? {α ε : Type} (fault : α → Option ε) (items : List α) :
    (items.map fault).foldr Option.or none = items.findSome? fault := by
  induction items with
  | nil => rfl
  | cons a rest ih =>
    rw [List.map_cons, List.foldr_cons, ih, List.findSome?_cons]
    cases fault a <;> rfl

theorem foldr_add_eq_countP {α : Type} (test : α → Bool) (items : List α) :
    (items.map fun a => if test a then 1 else 0).foldr (· + ·) 0 = items.countP test := by
  induction items with
  | nil => rfl
  | cons a rest ih => rw [List.map_cons, List.foldr_cons, ih, List.countP_cons, Nat.add_comm]

theorem Tree.countP_leaves {k : Kind} (t : Tree k) (kind : Kind) (leaf : kind.isLeaf = true) :
    t.leaves.countP (fun node => node.1 = kind) = t.nodes.countP fun node => node.1 = kind := by
  rw [t.leaves_eq_filter, List.countP_filter]
  refine List.countP_congr fun node _ => ?_
  by_cases same : node.1 = kind <;> simp [same, leaf]

/-- A visit that asks only the leaves comes to the product of their values from left to right, for any
monoid. The leaves are the nodes of the leaf kinds, each once and in the order of all nodes, so a count
is exact and the error that is found is the first. It is the order of the text: where every leaf is
written as a mark and no sort key is written twice, the marks come in this order. -/
theorem Tree.visit_leaves_eq_prod {ρ : Type} [Monoid ρ] (value : Node → ρ) {k : Kind} (t : Tree k) :
    (t.visit (.leafwise 1 (· * ·) value)).run = (t.leaves.map value).prod ∧
      t.leaves = (t.nodes.filter fun node => node.1.isLeaf) ∧
      (t.visit (.leafwise 0 (· + ·) fun leaf => if leaf.1 = .column then 1 else 0)).run =
        t.nodes.countP (fun node => node.1 = .column) ∧
      (∀ {ε : Type} (fault : Node → Option ε),
        (t.visit (.leafwise none Option.or fault)).run = t.leaves.findSome? fault) ∧
      ∀ style : Style, style.StandardRenderers → style.nulls.explicit = true → t.Valid →
        ∀ mark : {k : Kind} → Form k → Param,
          (t.drawn (style.marked mark)).params = Node.marks mark t.leaves := by
  refine ⟨?_, t.leaves_eq_filter, ?_, fun fault => ?_, fun style standard explicit valid mark =>
    Tree.Valid.marks_drawn mark standard explicit valid⟩
  · rw [List.prod_eq_foldr]
    exact t.visit_leafwise ⟨mul_assoc, one_mul, mul_one⟩
  · rw [← t.countP_leaves .column rfl, ← foldr_add_eq_countP]
    simp only [decide_eq_true_eq]
    exact t.visit_leafwise ⟨Nat.add_assoc, Nat.zero_add, Nat.add_zero⟩
  · have lawful : (Visitor.leafwise none Option.or fault).Lawful :=
      ⟨fun _ _ _ => Option.or_assoc, fun _ => Option.none_or, fun _ => Option.or_none⟩
    exact (t.visit_leafwise lawful).trans (foldr_or_eq_findSome? fault t.leaves)

/-- `a - ?` has the leaves of its two sides in this order, and one column. -/
theorem Tree.visit_leaves_eq_prod_difference :
    let column : Expr := .column ⟨none, ⟨"a", .none⟩⟩
    let difference := Expr.arithmetic .sub column (.param .anonymous)
    let mark : {k : Kind} → Form k → Param := fun {k} _ => ⟨.named k.label, none⟩
    (difference.visit (.leafwise 1 (· * ·) fun leaf => FreeMonoid.of leaf.1)).run =
        FreeMonoid.of .column * FreeMonoid.of .param ∧
      (difference.visit (.leafwise 0 (· + ·) fun leaf => if leaf.1 = .column then 1 else 0)).run = 1 ∧
      (difference.drawn (Style.standard.marked mark)).params =
        [⟨.named "column", none⟩, ⟨.named "param", none⟩] := by
  intro column difference mark
  have valid : difference.Valid :=
    Expr.arithmetic_valid.mpr
      ⟨Expr.column_valid.mpr ⟨nofun, rfl⟩, Expr.param_valid.mpr (Param.valid_none.mpr rfl)⟩
  obtain ⟨product, _, columns, _, marked⟩ :=
    Tree.visit_leaves_eq_prod (fun leaf => FreeMonoid.of leaf.1) difference
  exact ⟨product, columns, marked .standard (fun _ _ => rfl) rfl valid mark⟩

end SqlTree

import SqlTree.Edit
import SqlTree.Proofs.Filled
import SqlTree.Tree.Select
import SqlTree.Visit

namespace SqlTree

/-- A node of any kind. -/
abbrev Node := (k : Kind) × Tree k

mutual

/-- All nodes of a tree, each before those below it. -/
def Tree.nodes : {k : Kind} → Tree k → List Node
  | k, .node form below => ⟨k, .node form below⟩ :: below.nodes

def Forest.nodes : {slots : List Slot} → Forest slots → List Node
  | _, .nil => []
  | _, .one t rest => t.nodes ++ rest.nodes
  | _, .absent rest => rest.nodes
  | _, .present t rest => t.nodes ++ rest.nodes
  | _, .done rest => rest.nodes
  | _, .more t rest => t.nodes ++ rest.nodes
  | _, .noArm rest => rest.nodes
  | _, .arm c t rest => c.nodes ++ t.nodes ++ rest.nodes

end

/-- Everything that fills the slots, from left to right. -/
def Fill.flat {α : Kind → Type} : (slots : List Slot) → Fill α slots → List ((k : Kind) × α k)
  | [], _ => []
  | .one k :: slots, (a, rest) => ⟨k, a⟩ :: flat slots rest
  | .opt k :: slots, (a, rest) => a.toList.map (⟨k, ·⟩) ++ flat slots rest
  | .many k :: slots, (as, rest) => as.map (⟨k, ·⟩) ++ flat slots rest
  | .arms :: slots, (arms, rest) => arms.flatMap (fun arm => [⟨_, arm.1⟩, ⟨_, arm.2⟩]) ++ flat slots rest

theorem Fill.all_iff_flat {α : Kind → Type} {Q : {k : Kind} → α k → Prop} : {slots : List Slot} →
    {parts : Fill α slots} → (Fill.All Q slots parts ↔ ∀ x ∈ Fill.flat slots parts, Q x.2)
  | [], _ => ⟨fun _ => nofun, fun _ => trivial⟩
  | .one _ :: _, (_, _) => by
    rw [Fill.flat, List.forall_mem_cons]
    exact and_congr Iff.rfl all_iff_flat
  | .opt _ :: _, (_, _) => by
    rw [Fill.flat, List.forall_mem_append]
    exact and_congr (by simp) all_iff_flat
  | .many _ :: _, (_, _) => by
    rw [Fill.flat, List.forall_mem_append]
    exact and_congr (by simp) all_iff_flat
  | .arms :: _, (_, _) => by
    rw [Fill.flat, List.forall_mem_append, List.forall_mem_flatMap]
    exact and_congr (forall₂_congr fun _ _ => by simp) all_iff_flat

/-- The nodes right below a node, from left to right. -/
def Tree.children {k : Kind} (t : Tree k) : List Node :=
  Fill.flat t.form.slots t.contents

theorem Forest.nodes_eq_flatMap {slots : List Slot} (f : Forest slots) :
    f.nodes = (Fill.flat slots f.contents).flatMap fun node => node.2.nodes := by
  cases f with
  | nil => rfl
  | one _ rest => simp [Forest.nodes, Forest.contents, Fill.flat, rest.nodes_eq_flatMap]
  | absent rest => simp [Forest.nodes, Forest.contents, Fill.flat, rest.nodes_eq_flatMap]
  | present _ rest => simp [Forest.nodes, Forest.contents, Fill.flat, rest.nodes_eq_flatMap]
  | done rest => simp [Forest.nodes, Forest.contents, Fill.flat, rest.nodes_eq_flatMap]
  | more _ rest => simp [Forest.nodes, Forest.contents, Fill.flat, rest.nodes_eq_flatMap]
  | noArm rest => simp [Forest.nodes, Forest.contents, Fill.flat, rest.nodes_eq_flatMap]
  | arm _ _ rest => simp [Forest.nodes, Forest.contents, Fill.flat, rest.nodes_eq_flatMap]

theorem Forest.forall_nodes {R : Node → Prop} {slots : List Slot} (f : Forest slots) :
    (∀ node ∈ f.nodes, R node) ↔ Fill.All (fun t => ∀ node ∈ t.nodes, R node) slots f.contents := by
  rw [f.nodes_eq_flatMap, List.forall_mem_flatMap, Fill.all_iff_flat]

/-- A node stands before its children, and each child with all its nodes before the next child. -/
theorem Tree.nodes_eq_cons {k : Kind} (t : Tree k) :
    t.nodes = ⟨k, t⟩ :: t.children.flatMap fun node => node.2.nodes := by
  obtain ⟨form, below⟩ := t
  rw [Tree.nodes, below.nodes_eq_flatMap]
  rfl

/-- The clauses of a SELECT, from left to right. -/
theorem SelectParts.children_toTree (s : SelectParts Tree) :
    s.toTree.children =
      s.distinct.toList.map (⟨_, ·⟩) ++ (s.items.map (⟨_, ·⟩) ++ (s.source.toList.map (⟨_, ·⟩) ++
      (s.joins.map (⟨_, ·⟩) ++ (s.filter.toList.map (⟨_, ·⟩) ++ (s.groupBy.toList.map (⟨_, ·⟩) ++
      (s.having.toList.map (⟨_, ·⟩) ++ (s.windows.map (⟨_, ·⟩) ++ (s.orderBy.toList.map (⟨_, ·⟩) ++
      (s.limitOffset.toList.map (⟨_, ·⟩) ++ s.locking.toList.map (⟨_, ·⟩)))))))))) := by
  have clauses : s.toTree.children = Fill.flat Form.select.slots s.toFill :=
    congrArg (Fill.flat Form.select.slots) (Forest.contents_ofContents _ s.toFill)
  simp [clauses, SelectParts.toFill, Fill.flat]

section Acting

variable {m : Type → Type} [Monad m] {ρ : Type}

/-- Acts at every node before the nodes below it are walked. -/
def Visitor.acting (act : Node → m Unit) (unit : ρ) (combine : ρ → ρ → ρ) : Visitor m ρ where
  unit
  combine
  enter t below := do
    act ⟨_, t⟩
    below

theorem Visitor.enter_acting (act : Node → m Unit) (unit : ρ) (combine : ρ → ρ → ρ) {k : Kind} (t : Tree k)
    (below : m ρ) :
    (Visitor.acting act unit combine).enter t below = (act ⟨k, t⟩ >>= fun _ => below) :=
  rfl

/-- Acts at every node before the nodes below it are edited, and edits nothing. -/
def Editor.acting (act : Node → m Unit) : Editor m := fun t below => do
  act ⟨_, t⟩
  below

variable [LawfulMonad m] (act : Node → m Unit)

mutual

/-- An edit acts at the nodes in their order and keeps them. -/
theorem Tree.edit_acting : {k : Kind} → (t : Tree k) →
    t.edit (Editor.acting act) = do
      forM t.nodes act
      return none
  | _, .node form below => by simp [Tree.edit, Tree.nodes, Editor.acting, below.edit_acting]

theorem Forest.edit_acting : {slots : List Slot} → (f : Forest slots) →
    f.edit (Editor.acting act) = do
      forM f.nodes act
      return none
  | _, .nil => by simp [Forest.edit, Forest.nodes]
  | _, .one t rest => by simp [Forest.edit, Forest.nodes, t.edit_acting, rest.edit_acting, renewed]
  | _, .absent rest => by simp [Forest.edit, Forest.nodes, rest.edit_acting]
  | _, .present t rest => by simp [Forest.edit, Forest.nodes, t.edit_acting, rest.edit_acting, renewed]
  | _, .done rest => by simp [Forest.edit, Forest.nodes, rest.edit_acting]
  | _, .more t rest => by simp [Forest.edit, Forest.nodes, t.edit_acting, rest.edit_acting, renewed]
  | _, .noArm rest => by simp [Forest.edit, Forest.nodes, rest.edit_acting]
  | _, .arm c t rest => by
    simp [Forest.edit, Forest.nodes, c.edit_acting, t.edit_acting, rest.edit_acting, renewed]

end

variable (unit : ρ) (combine : ρ → ρ → ρ)

/-- Joins the units of the nodes and does nothing else. -/
abbrev Visitor.silent : Visitor Id ρ :=
  .acting (fun _ => pure ()) unit combine

mutual

/-- A visit acts at the nodes in their order, and the acts leave its result alone. -/
theorem Tree.visit_acting : {k : Kind} → (t : Tree k) →
    t.visit (.acting act unit combine) = do
      forM t.nodes act
      return (t.visit (.silent unit combine)).run
  | _, .node form below => by
    have gathered : (Visitor.acting act unit combine).gather form = (Visitor.silent unit combine).gather form :=
      rfl
    simp [Tree.visit, Tree.nodes, Visitor.enter_acting, below.visit_acting, gathered]

theorem Forest.visit_acting : {slots : List Slot} → (f : Forest slots) →
    f.visit (.acting act unit combine) = do
      forM f.nodes act
      return (f.visit (.silent unit combine)).run
  | _, .nil => by simp [Forest.visit, Forest.nodes]
  | _, .one t rest => by simp [Forest.visit, Forest.nodes, t.visit_acting, rest.visit_acting]
  | _, .absent rest => by simp [Forest.visit, Forest.nodes, rest.visit_acting]
  | _, .present t rest => by simp [Forest.visit, Forest.nodes, t.visit_acting, rest.visit_acting]
  | _, .done rest => by simp [Forest.visit, Forest.nodes, rest.visit_acting]
  | _, .more t rest => by simp [Forest.visit, Forest.nodes, t.visit_acting, rest.visit_acting]
  | _, .noArm rest => by simp [Forest.visit, Forest.nodes, rest.visit_acting]
  | _, .arm c t rest => by
    simp [Forest.visit, Forest.nodes, c.visit_acting, t.visit_acting, rest.visit_acting]

end

end Acting

/-- Notes a node behind those noted before. -/
def Node.record (node : Node) : StateM (List Node) Unit :=
  modify (· ++ [node])

theorem Node.run_record {α : Type} (a : α) (nodes seen : List Node) :
    (do forM nodes Node.record; return a : StateM (List Node) α).run seen = (a, seen ++ nodes) := by
  induction nodes generalizing seen with
  | nil =>
    rw [List.append_nil]
    rfl
  | cons node rest ih =>
    change (do forM rest Node.record; return a : StateM (List Node) α).run (seen ++ [node]) = _
    rw [ih, List.append_assoc, List.singleton_append]

/-- A visitor that is called at every node and an editor that is called at every node see the same nodes in
the same order, whatever the visit computes: a node, then child by child the nodes below it. The children
of a SELECT are its clauses in written order. -/
theorem Tree.traversals_in_step {ρ : Type} (unit : ρ) (combine : ρ → ρ → ρ) {k : Kind} (t : Tree k)
    (seen : List Node) :
    ((t.visit (.acting Node.record unit combine)).run seen).2 = seen ++ t.nodes ∧
    (t.edit (Editor.acting Node.record)).run seen = (none, seen ++ t.nodes) ∧
    t.nodes = ⟨k, t⟩ :: t.children.flatMap (fun node => node.2.nodes) ∧
    ∀ s : SelectParts Tree, s.toTree.children =
      s.distinct.toList.map (⟨_, ·⟩) ++ (s.items.map (⟨_, ·⟩) ++ (s.source.toList.map (⟨_, ·⟩) ++
      (s.joins.map (⟨_, ·⟩) ++ (s.filter.toList.map (⟨_, ·⟩) ++ (s.groupBy.toList.map (⟨_, ·⟩) ++
      (s.having.toList.map (⟨_, ·⟩) ++ (s.windows.map (⟨_, ·⟩) ++ (s.orderBy.toList.map (⟨_, ·⟩) ++
      (s.limitOffset.toList.map (⟨_, ·⟩) ++ s.locking.toList.map (⟨_, ·⟩)))))))))) := by
  refine ⟨?_, ?_, t.nodes_eq_cons, SelectParts.children_toTree⟩
  · rw [t.visit_acting, Node.run_record]
  · rw [t.edit_acting, Node.run_record]

end SqlTree

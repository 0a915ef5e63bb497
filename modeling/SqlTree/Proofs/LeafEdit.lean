import SqlTree.Proofs.Edited

namespace SqlTree

/-- Called at leaves: a new leaf of the kind, or none to keep the leaf. What it says of other kinds is
never asked. -/
abbrev LeafHook (m : Type → Type) :=
  {k : Kind} → Tree k → m (Option (Tree k))

/-- The editor that overrides nothing but the leaves. -/
def Editor.leaves {m : Type → Type} (hook : LeafHook m) : Editor m :=
  fun {k} t below => if k.isLeaf then hook t else below

mutual

/-- The leaves of a tree from left to right. -/
def Tree.leaves : {k : Kind} → Tree k → List ((k : Kind) × Tree k)
  | k, .node form below => if k.isLeaf then [⟨k, .node form below⟩] else below.leaves

def Forest.leaves : {slots : List Slot} → Forest slots → List ((k : Kind) × Tree k)
  | _, .nil => []
  | _, .one t rest => t.leaves ++ rest.leaves
  | _, .absent rest => rest.leaves
  | _, .present t rest => t.leaves ++ rest.leaves
  | _, .done rest => rest.leaves
  | _, .more t rest => t.leaves ++ rest.leaves
  | _, .noArm rest => rest.leaves
  | _, .arm c t rest => c.leaves ++ t.leaves ++ rest.leaves

end

mutual

/-- Calls the hook at every leaf and builds every other node anew with the form it had. -/
def Tree.rebuild {m : Type → Type} [Monad m] (hook : LeafHook m) : {k : Kind} → Tree k → m (Tree k)
  | k, .node form below =>
    if k.isLeaf then (·.getD (.node form below)) <$> hook (.node form below)
    else .node form <$> below.rebuild hook

def Forest.rebuild {m : Type → Type} [Monad m] (hook : LeafHook m) :
    {slots : List Slot} → Forest slots → m (Forest slots)
  | _, .nil => pure .nil
  | _, .one t rest => do
    let t ← t.rebuild hook
    return .one t (← rest.rebuild hook)
  | _, .absent rest => .absent <$> rest.rebuild hook
  | _, .present t rest => do
    let t ← t.rebuild hook
    return .present t (← rest.rebuild hook)
  | _, .done rest => .done <$> rest.rebuild hook
  | _, .more t rest => do
    let t ← t.rebuild hook
    return .more t (← rest.rebuild hook)
  | _, .noArm rest => .noArm <$> rest.rebuild hook
  | _, .arm c t rest => do
    let c ← c.rebuild hook
    let t ← t.rebuild hook
    return .arm c t (← rest.rebuild hook)

end

/-- Calls the hook at leaves one after another and tells for each whether it gave a new leaf. -/
def LeafHook.calls {m : Type → Type} [Monad m] (hook : LeafHook m) (leaves : List ((k : Kind) × Tree k)) :
    m (List Bool) :=
  leaves.mapM fun leaf => Option.isSome <$> hook leaf.2

section

variable {m : Type → Type} [Monad m] [LawfulMonad m] (hook : LeafHook m)

mutual

/-- An edit and a rebuild come to the same node with the same effects. -/
theorem Tree.edited_leaves : {k : Kind} → (t : Tree k) →
    t.edited (Editor.leaves hook) = t.rebuild hook
  | k, .node form below => by
    by_cases leaf : k.isLeaf = true
    · simp [Tree.edited, Tree.edit, Tree.rebuild, Editor.leaves, leaf]
    · rw [Tree.edited_of_below _ _ _ (by simp [Editor.leaves, leaf]), Forest.edited_leaves below]
      simp [Tree.rebuild, leaf]

theorem Forest.edited_leaves : {slots : List Slot} → (f : Forest slots) →
    f.edited (Editor.leaves hook) = f.rebuild hook
  | _, .nil => by simp [Forest.rebuild]
  | _, .one t rest => by simp [Forest.rebuild, Tree.edited_leaves t, Forest.edited_leaves rest]
  | _, .absent rest => by simp [Forest.rebuild, Forest.edited_leaves rest]
  | _, .present t rest => by simp [Forest.rebuild, Tree.edited_leaves t, Forest.edited_leaves rest]
  | _, .done rest => by simp [Forest.rebuild, Forest.edited_leaves rest]
  | _, .more t rest => by simp [Forest.rebuild, Tree.edited_leaves t, Forest.edited_leaves rest]
  | _, .noArm rest => by simp [Forest.rebuild, Forest.edited_leaves rest]
  | _, .arm c t rest => by
    simp [Forest.rebuild, Tree.edited_leaves c, Tree.edited_leaves t, Forest.edited_leaves rest]

end

mutual

/-- The editor that overrides nothing keeps every node. -/
theorem Tree.edit_identity : {k : Kind} → (t : Tree k) → t.edit Editor.identity = (pure none : m _)
  | _, .node form below => by simp [Tree.edit, Editor.identity, Forest.edit_identity below]

theorem Forest.edit_identity : {slots : List Slot} → (f : Forest slots) →
    f.edit Editor.identity = (pure none : m _)
  | _, .nil => by simp [Forest.edit]
  | _, .one t rest => by
    simp [Forest.edit, Tree.edit_identity t, Forest.edit_identity rest, renewed]
  | _, .absent rest => by simp [Forest.edit, Forest.edit_identity rest]
  | _, .present t rest => by
    simp [Forest.edit, Tree.edit_identity t, Forest.edit_identity rest, renewed]
  | _, .done rest => by simp [Forest.edit, Forest.edit_identity rest]
  | _, .more t rest => by
    simp [Forest.edit, Tree.edit_identity t, Forest.edit_identity rest, renewed]
  | _, .noArm rest => by simp [Forest.edit, Forest.edit_identity rest]
  | _, .arm c t rest => by
    simp [Forest.edit, Tree.edit_identity c, Tree.edit_identity t, Forest.edit_identity rest, renewed]

end

/-- The calls at the leaves of two parts are those of the first, then those of the second. -/
theorem LeafHook.calls_append (first second : List ((k : Kind) × Tree k)) :
    LeafHook.calls hook (first ++ second) = do
      let answers ← LeafHook.calls hook first
      return answers ++ (← LeafHook.calls hook second) := by
  simp [LeafHook.calls]

/-- A pair of parts edited one after the other is new when a call at a leaf of either part gives a new
leaf. -/
theorem isSome_renewed_calls {α β γ : Type} (pair : α → β → γ) (a : α) (b : β)
    {first : m (Option α)} {second : m (Option β)} {calls others : m (List Bool)}
    (left : Option.isSome <$> first = (·.any id) <$> calls)
    (right : Option.isSome <$> second = (·.any id) <$> others) :
    (Option.isSome <$> do
      let a? ← first
      return renewed pair a b a? (← second)) = (·.any id) <$> do
      let answers ← calls
      return answers ++ (← others) := by
  calc
    _ = do
      let new ← Option.isSome <$> first
      let newer ← Option.isSome <$> second
      return new || newer := by simp [renewed_isSome]
    _ = _ := by
      rw [left, right]
      simp

mutual

/-- An edit gives a new node exactly when some call at a leaf gives a new leaf. -/
theorem Tree.isSome_edit_leaves : {k : Kind} → (t : Tree k) →
    Option.isSome <$> t.edit (Editor.leaves hook) = (·.any id) <$> LeafHook.calls hook t.leaves
  | k, .node form below => by
    by_cases leaf : k.isLeaf = true
    · simp [Tree.edit, Tree.leaves, Editor.leaves, LeafHook.calls, leaf]
    · have rest := Forest.isSome_edit_leaves below
      simp only [Tree.edit, Tree.leaves, Editor.leaves, leaf]
      simp [← rest]

theorem Forest.isSome_edit_leaves : {slots : List Slot} → (f : Forest slots) →
    Option.isSome <$> f.edit (Editor.leaves hook) = (·.any id) <$> LeafHook.calls hook f.leaves
  | _, .nil => by simp [Forest.edit, Forest.leaves, LeafHook.calls]
  | _, .one t rest => by
    rw [Forest.edit, Forest.leaves, LeafHook.calls_append]
    exact isSome_renewed_calls _ t rest (Tree.isSome_edit_leaves t) (Forest.isSome_edit_leaves rest)
  | _, .absent rest => by
    simpa [Forest.edit, Forest.leaves] using Forest.isSome_edit_leaves rest
  | _, .present t rest => by
    rw [Forest.edit, Forest.leaves, LeafHook.calls_append]
    exact isSome_renewed_calls _ t rest (Tree.isSome_edit_leaves t) (Forest.isSome_edit_leaves rest)
  | _, .done rest => by
    simpa [Forest.edit, Forest.leaves] using Forest.isSome_edit_leaves rest
  | _, .more t rest => by
    rw [Forest.edit, Forest.leaves, LeafHook.calls_append]
    exact isSome_renewed_calls _ t rest (Tree.isSome_edit_leaves t) (Forest.isSome_edit_leaves rest)
  | _, .noArm rest => by
    simpa [Forest.edit, Forest.leaves] using Forest.isSome_edit_leaves rest
  | _, .arm c t rest => by
    have arm := isSome_renewed_calls Prod.mk c t
      (Tree.isSome_edit_leaves c) (Tree.isSome_edit_leaves t)
    rw [Forest.leaves, LeafHook.calls_append, LeafHook.calls_append]
    rw [← isSome_renewed_calls (fun arm rest => Forest.arm arm.1 arm.2 rest) (c, t) rest
      arm (Forest.isSome_edit_leaves rest)]
    simp [Forest.edit]

end

end

/-- Editing by hooks that keep a state: the node and the state come out as when every node is rebuilt,
the hooks are called once at every leaf from left to right, and the node is kept exactly when no call
gave a new leaf. Without hooks every node is kept. -/
theorem Tree.edit_leaves_eq_rebuild {σ : Type} (hook : LeafHook (StateM σ)) {k : Kind} (t : Tree k)
    (s : σ) :
    let edit := (t.edit (Editor.leaves hook)).run s
    let plain := (t.rebuild hook).run s
    let calls := (LeafHook.calls hook t.leaves).run s
    edit.1.getD t = plain.1 ∧ edit.2 = plain.2 ∧ edit.2 = calls.2 ∧
      (edit.1 = none ↔ ∀ new ∈ calls.1, new = false) ∧
      (t.edit (Editor.identity : Editor (StateM σ))).run s = (none, s) := by
  intro edit plain calls
  have value : (edit.1.getD t, edit.2) = plain := congrArg (fun x => x.run s) (t.edited_leaves hook)
  have change : (edit.1.isSome, edit.2) = (calls.1.any id, calls.2) :=
    congrArg (fun x => x.run s) (t.isSome_edit_leaves hook)
  obtain ⟨renewed, last⟩ := Prod.mk.inj change
  refine ⟨congrArg Prod.fst value, congrArg Prod.snd value, last, ?_, ?_⟩
  · rw [← Option.not_isSome_iff_eq_none, renewed]
    simp
  · rw [t.edit_identity]
    rfl

end SqlTree

import SqlTree.Edit

namespace SqlTree

theorem renewed_getD {α β γ : Type} (pair : α → β → γ) (a : α) (b : β) (a? : Option α)
    (b? : Option β) : (renewed pair a b a? b?).getD (pair a b) = pair (a?.getD a) (b?.getD b) := by
  cases a? <;> cases b? <;> rfl

/-- A pair is new as soon as one side of it is. -/
theorem renewed_isSome {α β γ : Type} (pair : α → β → γ) (a : α) (b : β) (a? : Option α)
    (b? : Option β) : (renewed pair a b a? b?).isSome = (a?.isSome || b?.isSome) := by
  cases a? <;> cases b? <;> rfl

theorem renewed_arm_getD {slots : List Slot} (c t : Tree .expr) (rest : Forest (.arms :: slots))
    (arm? : Option (Tree .expr × Tree .expr)) (rest? : Option (Forest (.arms :: slots))) :
    (renewed (fun arm rest => Forest.arm arm.1 arm.2 rest) (c, t) rest arm? rest?).getD
      (.arm c t rest) = .arm (arm?.getD (c, t)).1 (arm?.getD (c, t)).2 (rest?.getD rest) :=
  renewed_getD (fun arm rest => Forest.arm arm.1 arm.2 rest) (c, t) rest arm? rest?

variable {m : Type → Type} [Monad m]

/-- The node that stands in the place of a node after an edit. -/
def Tree.edited (r : Editor m) {k : Kind} (t : Tree k) : m (Tree k) :=
  (·.getD t) <$> t.edit r

def Forest.edited (r : Editor m) {slots : List Slot} (f : Forest slots) : m (Forest slots) :=
  (·.getD f) <$> f.edit r

variable [LawfulMonad m]

/-- Where the editor lets a node be, its form stays and the nodes below it are edited. -/
theorem Tree.edited_of_below (r : Editor m) {k : Kind} (form : Form k) (below : Forest form.slots)
    (passes : ∀ edit, r (.node form below) edit = edit) :
    (Tree.node form below).edited r = .node form <$> below.edited r := by
  simp [Tree.edited, Forest.edited, Tree.edit, passes]

@[simp]
theorem Forest.edited_nil (r : Editor m) : Forest.nil.edited r = pure .nil := by
  simp [Forest.edited, Forest.edit]

@[simp]
theorem Forest.edited_one (r : Editor m) {k : Kind} {slots : List Slot} (t : Tree k)
    (rest : Forest slots) : (Forest.one t rest).edited r = do
      let t ← t.edited r
      return .one t (← rest.edited r) := by
  simp [Forest.edited, Tree.edited, Forest.edit, renewed_getD]

@[simp]
theorem Forest.edited_absent (r : Editor m) {k : Kind} {slots : List Slot} (rest : Forest slots) :
    (Forest.absent (k := k) rest).edited r = .absent <$> rest.edited r := by
  simp [Forest.edited, Forest.edit]

@[simp]
theorem Forest.edited_present (r : Editor m) {k : Kind} {slots : List Slot} (t : Tree k)
    (rest : Forest slots) : (Forest.present t rest).edited r = do
      let t ← t.edited r
      return .present t (← rest.edited r) := by
  simp [Forest.edited, Tree.edited, Forest.edit, renewed_getD]

@[simp]
theorem Forest.edited_done (r : Editor m) {k : Kind} {slots : List Slot} (rest : Forest slots) :
    (Forest.done (k := k) rest).edited r = .done <$> rest.edited r := by
  simp [Forest.edited, Forest.edit]

@[simp]
theorem Forest.edited_more (r : Editor m) {k : Kind} {slots : List Slot} (t : Tree k)
    (rest : Forest (.many k :: slots)) : (Forest.more t rest).edited r = do
      let t ← t.edited r
      return .more t (← rest.edited r) := by
  simp [Forest.edited, Tree.edited, Forest.edit, renewed_getD]

@[simp]
theorem Forest.edited_noArm (r : Editor m) {slots : List Slot} (rest : Forest slots) :
    (Forest.noArm rest).edited r = .noArm <$> rest.edited r := by
  simp [Forest.edited, Forest.edit]

@[simp]
theorem Forest.edited_arm (r : Editor m) {slots : List Slot} (c t : Tree .expr)
    (rest : Forest (.arms :: slots)) : (Forest.arm c t rest).edited r = do
      let c ← c.edited r
      let t ← t.edited r
      return .arm c t (← rest.edited r) := by
  simp [Forest.edited, Tree.edited, Forest.edit, renewed_arm_getD, renewed_getD Prod.mk]

end SqlTree

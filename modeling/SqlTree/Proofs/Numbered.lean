import SqlTree.Bind
import SqlTree.Proofs.Edited

namespace SqlTree

/-- The tree after numbering from a given state, and the state then reached. -/
def Tree.numbered {k : Kind} (t : Tree k) (n : Numbering) : Tree k × Numbering :=
  (t.edited Numbering.editor).run n

def Forest.numbered {slots : List Slot} (f : Forest slots) (n : Numbering) : Forest slots × Numbering :=
  (f.edited Numbering.editor).run n

/-- A form at which numbering does something of its own. -/
def Form.isNumbered : {k : Kind} → Form k → Bool
  | _, .expr .literal | _, .expr .param | _, .typeName _ _ _ => true
  | _, _ => false

/-- The forms by how numbering treats them. -/
inductive Form.Numbered : {k : Kind} → Form k → Prop
  | literal : Form.Numbered (.expr .literal)
  | param : Form.Numbered (.expr .param)
  | typeName (base : TypeBase) (dims : UInt32) (zone : TimeZoneSpec) :
      Form.Numbered (.typeName base dims zone)
  | plain {k : Kind} {form : Form k} (other : form.isNumbered = false) : Form.Numbered form

theorem Form.numbered {k : Kind} (form : Form k) : form.Numbered := by
  cases form with
  | expr variant =>
    cases variant
    case literal => exact .literal
    case param => exact .param
    all_goals exact .plain rfl
  | typeName base dims zone => exact .typeName base dims zone
  | _ => exact .plain rfl

theorem Form.kind_ne_typeName {k : Kind} {form : Form k} (other : form.isNumbered = false) :
    k ≠ .typeName := by
  rintro rfl
  cases form
  cases other

theorem Literal.eq_null : {value : Literal} → value.isNull = true → value = .null
  | .null, _ => rfl

namespace Numbering

variable (n : Numbering)

theorem numbered_literal {value : Literal} (solid : value.isNull = false) :
    (Expr.literal value).numbered n =
      (Expr.param (.numbered (n.last + 1) (some value)),
        ⟨n.last + 1, n.log ++ [.bound value (n.last + 1)]⟩) := by
  have bound : Numbering.editor (Expr.literal value) = fun below =>
      if value.isNull then below
      else do
        let p ← next (some value)
        modify fun n => { n with log := n.log ++ [.bound value n.last] }
        return some (Expr.param p) := rfl
  simp only [Tree.numbered, Tree.edited, Tree.edit, bound, solid]
  rfl

theorem numbered_anonymous (value : Option Literal) :
    (Expr.param ⟨.anonymous, value⟩).numbered n =
      (Expr.param (.numbered (n.last + 1) value), { n with last := n.last + 1 }) :=
  rfl

theorem editor_plain {k : Kind} {form : Form k} (other : form.isNumbered = false)
    (below : Forest form.slots) (edit : StateM Numbering (Option (Tree k))) :
    Numbering.editor (.node form below) edit = edit := by
  cases form with
  | expr variant => cases variant <;> first | rfl | cases other
  | typeName => cases other
  | _ => rfl

theorem numbered_plain {k : Kind} {form : Form k} (other : form.isNumbered = false)
    (below : Forest form.slots) :
    (Tree.node form below).numbered n = (.node form (below.numbered n).1, (below.numbered n).2) := by
  rw [Tree.numbered, Tree.edited_of_below _ _ _ (editor_plain other below)]
  rfl

end Numbering

namespace Forest

variable (n : Numbering) {k : Kind} {slots : List Slot}

theorem numbered_one (t : Tree k) (rest : Forest slots) :
    (Forest.one t rest).numbered n =
      (.one (t.numbered n).1 (rest.numbered (t.numbered n).2).1, (rest.numbered (t.numbered n).2).2) := by
  rw [Forest.numbered, Forest.edited_one]
  rfl

theorem numbered_absent (rest : Forest slots) :
    (Forest.absent (k := k) rest).numbered n = (.absent (rest.numbered n).1, (rest.numbered n).2) := by
  rw [Forest.numbered, Forest.edited_absent]
  rfl

theorem numbered_present (t : Tree k) (rest : Forest slots) :
    (Forest.present t rest).numbered n =
      (.present (t.numbered n).1 (rest.numbered (t.numbered n).2).1,
        (rest.numbered (t.numbered n).2).2) := by
  rw [Forest.numbered, Forest.edited_present]
  rfl

theorem numbered_done (rest : Forest slots) :
    (Forest.done (k := k) rest).numbered n = (.done (rest.numbered n).1, (rest.numbered n).2) := by
  rw [Forest.numbered, Forest.edited_done]
  rfl

theorem numbered_more (t : Tree k) (rest : Forest (.many k :: slots)) :
    (Forest.more t rest).numbered n =
      (.more (t.numbered n).1 (rest.numbered (t.numbered n).2).1,
        (rest.numbered (t.numbered n).2).2) := by
  rw [Forest.numbered, Forest.edited_more]
  rfl

theorem numbered_noArm (rest : Forest slots) :
    (Forest.noArm rest).numbered n = (.noArm (rest.numbered n).1, (rest.numbered n).2) := by
  rw [Forest.numbered, Forest.edited_noArm]
  rfl

theorem numbered_arm (c t : Tree .expr) (rest : Forest (.arms :: slots)) :
    (Forest.arm c t rest).numbered n =
      let c' := c.numbered n
      let t' := t.numbered c'.2
      (.arm c'.1 t'.1 (rest.numbered t'.2).1, (rest.numbered t'.2).2) := by
  rw [Forest.numbered, Forest.edited_arm]
  rfl

end Forest

/-- The tree that is written when values are bound. -/
theorem Tree.number_getD {k : Kind} (t : Tree k) : t.number.tree?.getD t = (t.numbered .start).1 :=
  rfl

/-- Preparing numbers the tree, unless nothing can be bound to some parameter of the numbered tree. -/
theorem Tree.prepare_ok_iff {k : Kind} {t : Tree k} {tree? : Option (Tree k)} :
    t.prepare = .ok tree? ↔ t.number.tree? = tree? ∧ (t.numbered .start).1.firstValueless? = none := by
  unfold Tree.prepare
  rw [← t.number_getD]
  dsimp only
  cases (t.number.tree?.getD t).firstValueless? with
  | none => simp
  | some p => simp

end SqlTree

import SqlTree.Tree

namespace SqlTree

/-- Whether a form may have the given contents. -/
def Form.check {α : Kind → Type} : {k : Kind} → (form : Form k) → Fill α form.slots → Checked Unit
  | _, .typeName base _ _, _ => base.check
  | _, .case, (_, arms, _, _) => if arms.isEmpty then .error .noArm else .ok ()
  | _, .rowList, (rows, _) => if rows.isEmpty then .error .noRow else .ok ()
  | _, .usingJoin _ columns, _ => if columns.isEmpty then .error .noUsingColumn else .ok ()
  | _, .composite ops, (terms, _, _, _) =>
    if terms.length < 2 then .error .fewTerms
    else if ops.length ≠ terms.length - 1 then .error (.operatorCount terms.length ops.length)
    else .ok ()
  | _, .withQuery _, parts => if parts.1.isEmpty then .error .noCte else .ok ()
  | _, _, _ => .ok ()

/-- The node of a given form and contents, if the form may have them. -/
def Tree.make {k : Kind} (form : Form k) (contents : Fill Tree form.slots) : Checked (Tree k) := do
  form.check contents
  return .ofContents form contents

end SqlTree

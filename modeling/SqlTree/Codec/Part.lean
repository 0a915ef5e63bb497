import SqlTree.Build.Call
import SqlTree.Codec.Tree
import SqlTree.Tree.Equality

namespace SqlTree

open Codec

deriving instance BEq for CallArgs

instance : Coded CallArgs where
  encode
    | .star => .string "Star"
    | .list args => tagged "List" (encode args)
  decode j := do
    match ← variant j with
    | ("Star", payload) => if bare payload then .ok .star else .error .malformed
    | ("List", some args) => .list <$> decode args
    | _ => .error .malformed

/-- A condition of a CASE and its result. -/
structure Arm where
  cond : Expr
  result : Expr
  deriving BEq

instance : Coded Arm where
  encode arm := .object [("when", encode arm.cond), ("then", encode arm.result)]
  decode j := do
    let fs ← fields j
    return ⟨← required fs "when", ← required fs "then"⟩

/-- An expression of a select list with its alias. -/
structure AliasedExpr where
  expr : Expr
  name : Option Identifier
  deriving BEq

namespace AliasedExpr

def toItem (a : AliasedExpr) : SelectItem :=
  .node (.aliased a.name) (.one a.expr .nil)

/-- The expression and alias that an item of a select list is. -/
def ofItem? : SelectItem → Option AliasedExpr
  | .node (.aliased name) (.one e .nil) => some ⟨e, name⟩
  | _ => none

end AliasedExpr

instance : Coded AliasedExpr where
  encode a := .object [("expr", encode a.expr), ("alias", encode a.name)]
  decode j := do
    let fs ← fields j
    let e ← required fs "expr"
    return ⟨e, ← optionalValue fs "alias"⟩

end SqlTree

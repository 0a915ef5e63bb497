import SqlTree.Build.Expression

namespace SqlTree

inductive CallArgs where
  /-- `f(*)` -/
  | star
  | list (args : List Expr)

/-- A call with its decorations. -/
structure Call where
  name : QualifiedName
  args : CallArgs
  distinct : Bool
  withinGroup : Option (Tree .orderBy)
  filter : Option Predicate
  window : Option (Tree .overClause)

namespace Call

/-- A plain call. -/
def plain (name : QualifiedName) (args : CallArgs) : Call :=
  ⟨name, args, false, none, none, none⟩

def ofTree : Tree .function → Call
  | .node (.call name distinct) below =>
    let (args, withinGroup, filter, window, _) := below.contents
    ⟨name, .list args, distinct, withinGroup, filter, window⟩
  | .node (.callStar name distinct) below =>
    let (withinGroup, filter, window, _) := below.contents
    ⟨name, .star, distinct, withinGroup, filter, window⟩

def toTree (c : Call) : Tree .function :=
  let decorations := Forest.ofOption c.withinGroup (.ofOption c.filter (.ofOption c.window .nil))
  match c.args with
  | .list args => .node (.call c.name c.distinct) (.ofList args decorations)
  | .star => .node (.callStar c.name c.distinct) decorations

def toExpr (c : Call) : Expr :=
  .of .function c.toTree

/-- A call of a function by its dotted name. -/
def make (name : String) (args : List Expr) : Checked Call := do
  return plain (← QualifiedName.ofDotted name) (.list args)

/-- `count(*)` -/
def countStar : Call :=
  plain ⟨[⟨"count", .none⟩]⟩ .star

end Call

/-- The call that an expression is. -/
def Expr.call? : Expr → Option Call
  | .of .function t => some (.ofTree t)
  | _ => none

end SqlTree

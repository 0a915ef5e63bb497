import SqlTree.Tree.Check
import SqlTree.Tree.Node

namespace SqlTree

/-- A sort key. -/
def OrderItem.make (e : Expr) (direction : Option Direction) (nulls : Option Nulls) : Tree .orderItem :=
  .node (.orderItem direction nulls) (.one e .nil)

def OrderBy.ofList (items : List (Tree .orderItem)) : Tree .orderBy :=
  .node .orderBy (.ofList items .nil)

/-- A set operation with its order and row window. -/
structure Composite where
  terms : List Query
  ops : List SetOperator
  orderBy : Option (Tree .orderBy)
  limitOffset : Option (Tree .limitOffset)

namespace Composite

def ofTree : Tree .composite → Composite
  | .node (.composite ops) below =>
    let (terms, orderBy, limitOffset, _) := below.contents
    ⟨terms, ops, orderBy, limitOffset⟩

def toTree (c : Composite) : Tree .composite :=
  .node (.composite c.ops) (.ofList c.terms (.ofOption c.orderBy (.ofOption c.limitOffset .nil)))

/-- Two queries with an operator between them. -/
def pair (op : SetOperator) (lhs rhs : Query) : Composite :=
  ⟨[lhs, rhs], [op], none, none⟩

/-- One more term at the end. -/
def append (c : Composite) (op : SetOperator) (q : Query) : Composite :=
  { c with terms := c.terms ++ [q], ops := c.ops ++ [op] }

/-- Neither order nor row window stand after the terms. -/
def isOpen (c : Composite) : Bool :=
  c.orderBy.isNone && c.limitOffset.isNone

end Composite

namespace Query

def ofComposite (c : Composite) : Query :=
  .of .composite c.toTree

/-- The set operation that a query is. -/
def composite? : Query → Option Composite
  | .of .composite t => some (.ofTree t)
  | _ => none

/-- A set operation over at least two terms, with an operator between any two neighbours. -/
def composite (terms : List Query) (ops : List SetOperator) : Checked Query := do
  return .of .composite (← Tree.make (.composite ops) (terms, none, none, ()))

/-- Two queries joined by an operator. A set operation on the left that nothing follows is extended
instead of nested. -/
def compose (lhs : Query) (op : SetOperator) (rhs : Query) : Query :=
  match lhs.composite? with
  | some c => if c.isOpen then ofComposite (c.append op rhs) else ofComposite (.pair op lhs rhs)
  | none => ofComposite (.pair op lhs rhs)

/-- A query with at least one common table expression in front of it. -/
def withCtes (ctes : List (Tree .cte)) (body : Query) (recursive : Bool) : Checked Query := do
  return .of .withQuery (← Tree.make (.withQuery recursive) (ctes, body, ()))

end Query

def Cte.make (name : Identifier) (columns : List Identifier) (materialization : Materialization)
    (body : Query) : Tree .cte :=
  .node (.cte name columns materialization) (.present body .nil)

end SqlTree

import SqlTree.Build.Condition
import SqlTree.Build.Query
import SqlTree.Tree.Select

namespace SqlTree

namespace SelectItem

def ofExpr (e : Expr) : SelectItem :=
  .node (.aliased none) (.one e .nil)

/-- `e AS name` -/
def aliased (e : Expr) (name : Identifier) : SelectItem :=
  .node (.aliased (some name)) (.one e .nil)

def star : SelectItem :=
  .node .star .nil

end SelectItem

/-- A SELECT under construction. Clauses are set or extended in any order, and at any time the query so far can
be taken. -/
structure SelectDraft where
  distinct : Option (Tree .distinct) := none
  items : List SelectItem := []
  source : Option TableRef := none
  joins : List Join := []
  filter : Option Predicate := none
  groupBy : Option (Tree .groupBy) := none
  having : Option Predicate := none
  windows : List (Tree .windowDef) := []
  orderBy : Option (List (Tree .orderItem)) := none
  limitOffset : Option LimitOffset := none
  locking : Option Locking := none

namespace SelectDraft

/-- Nothing is given yet. -/
def empty : SelectDraft := {}

def setDistinct (d : SelectDraft) : SelectDraft :=
  { d with distinct := some (.node .distinct .nil) }

def setDistinctOn (d : SelectDraft) (on : List Expr) : SelectDraft :=
  { d with distinct := some (.node .distinctOn (.ofList on .nil)) }

def addItem (d : SelectDraft) (item : SelectItem) : SelectDraft :=
  { d with items := d.items ++ [item] }

def addItems (d : SelectDraft) (items : List SelectItem) : SelectDraft :=
  { d with items := d.items ++ items }

def setSource (d : SelectDraft) (t : TableRef) : SelectDraft :=
  { d with source := some t }

def addJoin (d : SelectDraft) (j : Join) : SelectDraft :=
  { d with joins := d.joins ++ [j] }

/-- A condition beside the one there may be. -/
def both (known : Option Predicate) (p : Predicate) : Predicate :=
  match known with
  | some q => .connective .and q p
  | none => p

/-- One more condition on rows; conditions are joined by AND. -/
def addFilter (d : SelectDraft) (p : Predicate) : SelectDraft :=
  { d with filter := some (both d.filter p) }

def setGroupBy (d : SelectDraft) (items : List Expr) : SelectDraft :=
  { d with groupBy := some (.node .groupBy (.ofList items .nil)) }

/-- One more condition on groups; conditions are joined by AND. -/
def addHaving (d : SelectDraft) (p : Predicate) : SelectDraft :=
  { d with having := some (both d.having p) }

def addWindow (d : SelectDraft) (w : Tree .windowDef) : SelectDraft :=
  { d with windows := d.windows ++ [w] }

def addOrder (d : SelectDraft) (item : Tree .orderItem) : SelectDraft :=
  { d with orderBy := some (d.orderBy.getD [] ++ [item]) }

/-- The row window so far; without one, all rows are asked for. -/
def rowWindow (d : SelectDraft) : LimitOffset :=
  d.limitOffset.getD ⟨none, none⟩

/-- How many rows; an offset that was given stays. -/
def setLimit (d : SelectDraft) (n : UInt64) : SelectDraft :=
  { d with limitOffset := some { d.rowWindow with limit := some n } }

/-- How many rows to pass over; a limit that was given stays. -/
def setOffset (d : SelectDraft) (n : UInt64) : SelectDraft :=
  { d with limitOffset := some { d.rowWindow with offset := some n } }

def setLocking (d : SelectDraft) (l : Locking) : SelectDraft :=
  { d with locking := some l }

/-- The clauses of the query so far. An empty select list becomes a single star, and a clause to which
nothing was given is absent. -/
def parts (d : SelectDraft) : SelectParts Tree where
  distinct := d.distinct
  items := if d.items.isEmpty then [SelectItem.star] else d.items
  source := d.source
  joins := d.joins
  filter := d.filter
  groupBy := d.groupBy
  having := d.having
  windows := d.windows
  orderBy := d.orderBy.map OrderBy.ofList
  limitOffset := d.limitOffset.map .limitOffset
  locking := d.locking.map .locking

/-- The query so far. -/
def build (d : SelectDraft) : Select :=
  d.parts.toTree

end SelectDraft

end SqlTree

import SqlTree.Tree

namespace SqlTree

/-- The clauses of a SELECT in written order. -/
structure SelectParts (α : Kind → Type) where
  distinct : Option (α .distinct)
  items : List (α .selectItem)
  source : Option (α .tableRef)
  joins : List (α .join)
  filter : Option (α .predicate)
  groupBy : Option (α .groupBy)
  having : Option (α .predicate)
  windows : List (α .windowDef)
  orderBy : Option (α .orderBy)
  limitOffset : Option (α .limitOffset)
  locking : Option (α .locking)

namespace SelectParts

def ofFill {α : Kind → Type} : Fill α Form.select.slots → SelectParts α
  | (distinct, items, source, joins, filter, groupBy, having, windows, orderBy, limitOffset, locking, _) =>
    ⟨distinct, items, source, joins, filter, groupBy, having, windows, orderBy, limitOffset, locking⟩

def toFill {α : Kind → Type} (s : SelectParts α) : Fill α Form.select.slots :=
  (s.distinct, s.items, s.source, s.joins, s.filter, s.groupBy, s.having, s.windows, s.orderBy,
    s.limitOffset, s.locking, ())

def toTree (s : SelectParts Tree) : Select :=
  .ofContents .select s.toFill

end SelectParts

/-- The clauses of a SELECT. -/
def Select.parts : Select → SelectParts Tree
  | .node .select below => .ofFill below.contents

end SqlTree

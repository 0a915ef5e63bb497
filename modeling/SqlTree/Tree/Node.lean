import SqlTree.Tree

namespace SqlTree

namespace Tree

@[match_pattern]
abbrev literal (value : Literal) : Tree .literal :=
  .node (.literal value) .nil

@[match_pattern]
abbrev column (c : ColumnRef) : Tree .column :=
  .node (.column c) .nil

@[match_pattern]
abbrev param (p : Param) : Tree .param :=
  .node (.param p) .nil

@[match_pattern]
abbrev namedTable (t : NamedTable) : Tree .namedTable :=
  .node (.namedTable t) .nil

@[match_pattern]
abbrev limitOffset (w : LimitOffset) : Tree .limitOffset :=
  .node (.limitOffset w) .nil

@[match_pattern]
abbrev locking (l : Locking) : Tree .locking :=
  .node (.locking l) .nil

/-- The row window that a node asks for. -/
def window : Tree .limitOffset → LimitOffset
  | .limitOffset w => w

end Tree

@[match_pattern]
abbrev Expr.of (variant : ExprVariant) (t : Tree variant.kind) : Expr :=
  .node (.expr variant) (.one t .nil)

@[match_pattern]
abbrev Expr.literal (value : Literal) : Expr :=
  .of .literal (.literal value)

@[match_pattern]
abbrev Expr.column (c : ColumnRef) : Expr :=
  .of .column (.column c)

@[match_pattern]
abbrev Expr.param (p : Param) : Expr :=
  .of .param (.param p)

@[match_pattern]
abbrev Expr.predicate (p : Predicate) : Expr :=
  .of .predicate p

@[match_pattern]
abbrev Predicate.of (variant : PredicateVariant) (t : Tree variant.kind) : Predicate :=
  .node (.predicate variant) (.one t .nil)

@[match_pattern]
abbrev ValueSet.of (variant : ValueSetVariant) (t : Tree variant.kind) : ValueSet :=
  .node (.valueSet variant) (.one t .nil)

@[match_pattern]
abbrev TableRef.of (variant : TableVariant) (t : Tree variant.kind) : TableRef :=
  .node (.tableRef variant) (.one t .nil)

@[match_pattern]
abbrev Join.of (variant : JoinVariant) (t : Tree variant.kind) : Join :=
  .node (.join variant) (.one t .nil)

@[match_pattern]
abbrev Query.of (variant : QueryVariant) (t : Tree variant.kind) : Query :=
  .node (.query variant) (.one t .nil)

end SqlTree

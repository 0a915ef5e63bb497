import SqlTree.Enumerated

namespace SqlTree

/-- The kind of a node. `expr`, `predicate`, `valueSet`, `tableRef`, `join` and `query` are unions: a
node of such a kind holds one node of a narrower kind. -/
inductive Kind where
  | expr
  | literal
  | column
  | param
  | function
  | case
  | arithmetic
  | negate
  | customBinary
  | customUnary
  | cast
  | typeName
  | array
  | row
  | rowList
  | subquery
  | collate
  | atTimeZone
  | predicate
  | comparison
  | between
  | like
  | isNull
  | isDistinctFrom
  | membership
  | existence
  | quantified
  | condition
  | negation
  | connective
  | valueSet
  | tableRef
  | namedTable
  | subqueryTable
  | valuesTable
  | functionTable
  | lateralTable
  | join
  | crossJoin
  | naturalJoin
  | usingJoin
  | onJoin
  | query
  | select
  | composite
  | withQuery
  | cte
  | selectItem
  | distinct
  | groupBy
  | orderBy
  | orderItem
  | limitOffset
  | locking
  | windowDef
  | windowSpec
  | overClause
  | partitionBy
  | frame
  | bound
  deriving DecidableEq, Repr

namespace Kind

def all : List Kind :=
  [.expr, .literal, .column, .param, .function, .case, .arithmetic, .negate, .customBinary,
  .customUnary, .cast, .typeName, .array, .row, .rowList, .subquery, .collate, .atTimeZone,
  .predicate, .comparison, .between, .like, .isNull, .isDistinctFrom, .membership, .existence,
  .quantified, .condition, .negation, .connective, .valueSet, .tableRef, .namedTable,
  .subqueryTable, .valuesTable, .functionTable, .lateralTable, .join, .crossJoin, .naturalJoin,
  .usingJoin, .onJoin, .query, .select, .composite, .withQuery, .cte, .selectItem, .distinct,
  .groupBy, .orderBy, .orderItem, .limitOffset, .locking, .windowDef, .windowSpec, .overClause,
  .partitionBy, .frame, .bound]

/-- The name of a kind in interchange. -/
def tag : Kind → String
  | .expr => "Expr"
  | .literal => "Literal"
  | .column => "ColumnRef"
  | .param => "Param"
  | .function => "FunctionCall"
  | .case => "CaseExpr"
  | .arithmetic => "Arithmetic"
  | .negate => "Negate"
  | .customBinary => "CustomBinary"
  | .customUnary => "CustomUnary"
  | .cast => "Cast"
  | .typeName => "TypeName"
  | .array => "ArrayLiteral"
  | .row => "Row"
  | .rowList => "RowList"
  | .subquery => "SubqueryExpr"
  | .collate => "Collate"
  | .atTimeZone => "AtTimeZone"
  | .predicate => "Predicate"
  | .comparison => "Comparison"
  | .between => "Between"
  | .like => "Like"
  | .isNull => "IsNull"
  | .isDistinctFrom => "IsDistinctFrom"
  | .membership => "InPredicate"
  | .existence => "Exists"
  | .quantified => "QuantifiedComparison"
  | .condition => "UnaryPredicate"
  | .negation => "Not"
  | .connective => "Logical"
  | .valueSet => "ValueSet"
  | .tableRef => "TableRef"
  | .namedTable => "NamedTable"
  | .subqueryTable => "SubqueryTable"
  | .valuesTable => "ValuesTable"
  | .functionTable => "FunctionTable"
  | .lateralTable => "LateralTable"
  | .join => "Join"
  | .crossJoin => "CrossJoin"
  | .naturalJoin => "NaturalJoin"
  | .usingJoin => "UsingJoin"
  | .onJoin => "OnJoin"
  | .query => "Query"
  | .select => "SelectQuery"
  | .composite => "CompositeQuery"
  | .withQuery => "WithQuery"
  | .cte => "CteDef"
  | .selectItem => "SelectItem"
  | .distinct => "DistinctSpec"
  | .groupBy => "GroupBy"
  | .orderBy => "OrderBy"
  | .orderItem => "OrderItem"
  | .limitOffset => "LimitOffset"
  | .locking => "LockingClause"
  | .windowDef => "WindowDef"
  | .windowSpec => "WindowSpec"
  | .overClause => "OverSpec"
  | .partitionBy => "PartitionBy"
  | .frame => "FrameSpec"
  | .bound => "BoundSpec"

instance : Enumerated Kind := ⟨all, tag⟩

/-- The name of a kind in traces of a traversal. -/
def label : Kind → String
  | .expr => "expr"
  | .literal => "literal"
  | .column => "column"
  | .param => "param"
  | .function => "function"
  | .case => "case"
  | .arithmetic => "arithmetic"
  | .negate => "negate"
  | .customBinary => "custom_binary"
  | .customUnary => "custom_unary"
  | .cast => "cast"
  | .typeName => "type_name"
  | .array => "array"
  | .row => "row"
  | .rowList => "row_list"
  | .subquery => "subquery"
  | .collate => "collate"
  | .atTimeZone => "at_time_zone"
  | .predicate => "predicate"
  | .comparison => "comparison"
  | .between => "between"
  | .like => "like"
  | .isNull => "is_null"
  | .isDistinctFrom => "is_distinct_from"
  | .membership => "in"
  | .existence => "exists"
  | .quantified => "quantified"
  | .condition => "unary"
  | .negation => "not"
  | .connective => "logical"
  | .valueSet => "value_set"
  | .tableRef => "table_ref"
  | .namedTable => "named_table"
  | .subqueryTable => "subquery_table"
  | .valuesTable => "values_table"
  | .functionTable => "function_table"
  | .lateralTable => "lateral_table"
  | .join => "join"
  | .crossJoin => "cross_join"
  | .naturalJoin => "natural_join"
  | .usingJoin => "using_join"
  | .onJoin => "on_join"
  | .query => "query"
  | .select => "select"
  | .composite => "composite"
  | .withQuery => "with"
  | .cte => "cte"
  | .selectItem => "select_item"
  | .distinct => "distinct"
  | .groupBy => "group_by"
  | .orderBy => "order_by"
  | .orderItem => "order_item"
  | .limitOffset => "limit_offset"
  | .locking => "locking"
  | .windowDef => "window_def"
  | .windowSpec => "window_spec"
  | .overClause => "over"
  | .partitionBy => "partition_by"
  | .frame => "frame"
  | .bound => "bound"

/-- Nodes of these kinds hold no other node. -/
def isLeaf : Kind → Bool
  | .literal | .column | .param | .namedTable | .limitOffset | .locking => true
  | _ => false

/-- Whether nodes of the kind are written by a renderer of their own. A union is written by the
renderer of what it holds, and a row window by the query around it. -/
def hasRenderer : Kind → Bool
  | .expr | .predicate | .valueSet | .tableRef | .join | .query | .limitOffset => false
  | _ => true

end Kind

/-- What an expression can be. -/
inductive ExprVariant where
  | literal
  | column
  | param
  | function
  | case
  | arithmetic
  | negate
  | customBinary
  | customUnary
  | cast
  | array
  | row
  | rowList
  | subquery
  | collate
  | atTimeZone
  | predicate
  deriving DecidableEq, Repr

namespace ExprVariant

abbrev kind : ExprVariant → Kind
  | .literal => .literal
  | .column => .column
  | .param => .param
  | .function => .function
  | .case => .case
  | .arithmetic => .arithmetic
  | .negate => .negate
  | .customBinary => .customBinary
  | .customUnary => .customUnary
  | .cast => .cast
  | .array => .array
  | .row => .row
  | .rowList => .rowList
  | .subquery => .subquery
  | .collate => .collate
  | .atTimeZone => .atTimeZone
  | .predicate => .predicate

instance : Enumerated ExprVariant where
  members :=
    [.literal, .column, .param, .function, .case, .arithmetic, .negate, .customBinary,
    .customUnary, .cast, .array, .row, .rowList, .subquery, .collate, .atTimeZone, .predicate]
  tag
    | .literal => "Literal"
    | .column => "Column"
    | .param => "Param"
    | .function => "Function"
    | .case => "Case"
    | .arithmetic => "Arithmetic"
    | .negate => "Negate"
    | .customBinary => "CustomBinary"
    | .customUnary => "CustomUnary"
    | .cast => "Cast"
    | .array => "Array"
    | .row => "Row"
    | .rowList => "RowList"
    | .subquery => "Subquery"
    | .collate => "Collate"
    | .atTimeZone => "AtTimeZone"
    | .predicate => "Predicate"

end ExprVariant

/-- What a predicate can be. -/
inductive PredicateVariant where
  | comparison
  | between
  | like
  | isNull
  | isDistinctFrom
  | membership
  | existence
  | quantified
  | condition
  | negation
  | connective
  deriving DecidableEq, Repr

namespace PredicateVariant

abbrev kind : PredicateVariant → Kind
  | .comparison => .comparison
  | .between => .between
  | .like => .like
  | .isNull => .isNull
  | .isDistinctFrom => .isDistinctFrom
  | .membership => .membership
  | .existence => .existence
  | .quantified => .quantified
  | .condition => .condition
  | .negation => .negation
  | .connective => .connective

instance : Enumerated PredicateVariant where
  members :=
    [.comparison, .between, .like, .isNull, .isDistinctFrom, .membership, .existence, .quantified,
    .condition, .negation, .connective]
  tag
    | .comparison => "Comparison"
    | .between => "Between"
    | .like => "Like"
    | .isNull => "IsNull"
    | .isDistinctFrom => "IsDistinctFrom"
    | .membership => "In"
    | .existence => "Exists"
    | .quantified => "Quantified"
    | .condition => "Unary"
    | .negation => "Not"
    | .connective => "Logical"

end PredicateVariant

/-- What the right side of a membership test can be. -/
inductive ValueSetVariant where
  | query
  | row
  | rowList
  deriving DecidableEq, Repr

namespace ValueSetVariant

abbrev kind : ValueSetVariant → Kind
  | .query => .query
  | .row => .row
  | .rowList => .rowList

instance : Enumerated ValueSetVariant where
  members :=
    [.query, .row, .rowList]
  tag
    | .query => "Subquery"
    | .row => "Row"
    | .rowList => "RowList"

end ValueSetVariant

/-- What a table reference can be. -/
inductive TableVariant where
  | named
  | subquery
  | values
  | function
  | lateral
  deriving DecidableEq, Repr

namespace TableVariant

abbrev kind : TableVariant → Kind
  | .named => .namedTable
  | .subquery => .subqueryTable
  | .values => .valuesTable
  | .function => .functionTable
  | .lateral => .lateralTable

instance : Enumerated TableVariant where
  members :=
    [.named, .subquery, .values, .function, .lateral]
  tag
    | .named => "Named"
    | .subquery => "Subquery"
    | .values => "Values"
    | .function => "Function"
    | .lateral => "Lateral"

end TableVariant

/-- What a join can be. -/
inductive JoinVariant where
  | cross
  | natural
  | using
  | on
  deriving DecidableEq, Repr

namespace JoinVariant

abbrev kind : JoinVariant → Kind
  | .cross => .crossJoin
  | .natural => .naturalJoin
  | .using => .usingJoin
  | .on => .onJoin

instance : Enumerated JoinVariant where
  members :=
    [.cross, .natural, .using, .on]
  tag
    | .cross => "Cross"
    | .natural => "Natural"
    | .using => "Using"
    | .on => "On"

end JoinVariant

/-- What a query can be. -/
inductive QueryVariant where
  | select
  | composite
  | withQuery
  deriving DecidableEq, Repr

namespace QueryVariant

abbrev kind : QueryVariant → Kind
  | .select => .select
  | .composite => .composite
  | .withQuery => .withQuery

instance : Enumerated QueryVariant where
  members :=
    [.select, .composite, .withQuery]
  tag
    | .select => "Select"
    | .composite => "Composite"
    | .withQuery => "With"

end QueryVariant

end SqlTree

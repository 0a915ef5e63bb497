import SqlTree.Clause
import SqlTree.Kind
import SqlTree.Operator
import SqlTree.Param
import SqlTree.Table
import SqlTree.TypeName
import SqlTree.Window

namespace SqlTree

/-- A column, perhaps of a given table. -/
structure ColumnRef where
  qualifier : Option Identifier
  name : Identifier
  deriving DecidableEq, Repr

/-- A place for nodes: exactly one, at most one, any number, or the arms of a CASE, each of which is a
condition and a result. -/
inductive Slot where
  | one (k : Kind)
  | opt (k : Kind)
  | many (k : Kind)
  | arms
  deriving DecidableEq, Repr

/-- What a node is apart from the nodes it holds: an alternative of its kind, with its attributes. -/
inductive Form : Kind → Type where
  | expr (variant : ExprVariant) : Form .expr
  | literal (value : Literal) : Form .literal
  | column (column : ColumnRef) : Form .column
  | param (param : Param) : Form .param
  | call (name : QualifiedName) (distinct : Bool) : Form .function
  | callStar (name : QualifiedName) (distinct : Bool) : Form .function
  | case : Form .case
  | arithmetic (op : ArithmeticOp) : Form .arithmetic
  | negate : Form .negate
  | customBinary (op : CustomOperator) : Form .customBinary
  | customUnary (op : CustomOperator) : Form .customUnary
  | cast : Form .cast
  | typeName (base : TypeBase) (dims : UInt32) (zone : TimeZoneSpec) : Form .typeName
  | array : Form .array
  | row : Form .row
  | rowList : Form .rowList
  | subquery : Form .subquery
  | collate (collation : QualifiedName) : Form .collate
  | atTimeZone : Form .atTimeZone
  | predicate (variant : PredicateVariant) : Form .predicate
  | comparison (op : ComparisonOp) : Form .comparison
  | between (symmetric : Bool) : Form .between
  | like (negated : Bool) : Form .like
  | isNull (negated : Bool) : Form .isNull
  | isDistinctFrom (negated : Bool) : Form .isDistinctFrom
  | membership (negated : Bool) : Form .membership
  | existence (negated : Bool) : Form .existence
  | quantified (op : ComparisonOp) (quantifier : Quantifier) : Form .quantified
  | condition : Form .condition
  | negation : Form .negation
  | connective (op : LogicalOp) : Form .connective
  | valueSet (variant : ValueSetVariant) : Form .valueSet
  | tableRef (variant : TableVariant) : Form .tableRef
  | namedTable (table : NamedTable) : Form .namedTable
  | subqueryTable (correlation : Option TableAlias) : Form .subqueryTable
  | valuesTable (correlation : Option TableAlias) : Form .valuesTable
  | functionTable (correlation : Option TableAlias) : Form .functionTable
  | lateralTable : Form .lateralTable
  | join (variant : JoinVariant) : Form .join
  | crossJoin : Form .crossJoin
  | naturalJoin : Form .naturalJoin
  | usingJoin (kind : JoinKind) (columns : List Identifier) : Form .usingJoin
  | onJoin (kind : JoinKind) : Form .onJoin
  | query (variant : QueryVariant) : Form .query
  | select : Form .select
  | composite (ops : List SetOperator) : Form .composite
  | withQuery (recursive : Bool) : Form .withQuery
  | cte (name : Identifier) (columns : List Identifier) (materialization : Materialization) : Form .cte
  | aliased (name : Option Identifier) : Form .selectItem
  | star : Form .selectItem
  | qualifiedStar (name : QualifiedName) : Form .selectItem
  | distinct : Form .distinct
  | distinctOn : Form .distinct
  | groupBy : Form .groupBy
  | orderBy : Form .orderBy
  | orderItem (direction : Option Direction) (nulls : Option Nulls) : Form .orderItem
  | limitOffset (window : LimitOffset) : Form .limitOffset
  | locking (locking : Locking) : Form .locking
  | windowDef (name : Identifier) : Form .windowDef
  | windowSpec (exclude : Option FrameExclusion) : Form .windowSpec
  | overName (name : Identifier) : Form .overClause
  | overSpec : Form .overClause
  | partitionBy : Form .partitionBy
  | frameFrom (unit : FrameUnit) : Form .frame
  | frameBetween (unit : FrameUnit) : Form .frame
  | boundAt (edge : FrameEdge) : Form .bound
  | boundOffset (side : FrameSide) : Form .bound

namespace Form

/-- The places for nodes below a form, in written order. -/
abbrev slots : {k : Kind} → Form k → List Slot
  | _, .expr v => [.one v.kind]
  | _, .literal _ => []
  | _, .column _ => []
  | _, .param _ => []
  | _, .call _ _ => [.many .expr, .opt .orderBy, .opt .predicate, .opt .overClause]
  | _, .callStar _ _ => [.opt .orderBy, .opt .predicate, .opt .overClause]
  | _, .case => [.opt .expr, .arms, .opt .expr]
  | _, .arithmetic _ => [.one .expr, .one .expr]
  | _, .negate => [.one .expr]
  | _, .customBinary _ => [.one .expr, .one .expr]
  | _, .customUnary _ => [.one .expr]
  | _, .cast => [.one .expr, .one .typeName]
  | _, .typeName _ _ _ => [.many .expr]
  | _, .array => [.many .expr]
  | _, .row => [.many .expr]
  | _, .rowList => [.many .row]
  | _, .subquery => [.one .query]
  | _, .collate _ => [.one .expr]
  | _, .atTimeZone => [.one .expr, .one .expr]
  | _, .predicate v => [.one v.kind]
  | _, .comparison _ => [.one .expr, .one .expr]
  | _, .between _ => [.one .expr, .one .expr, .one .expr]
  | _, .like _ => [.one .expr, .one .expr, .opt .expr]
  | _, .isNull _ => [.one .expr]
  | _, .isDistinctFrom _ => [.one .expr, .one .expr]
  | _, .membership _ => [.one .expr, .one .valueSet]
  | _, .existence _ => [.one .query]
  | _, .quantified _ _ => [.one .expr, .one .query]
  | _, .condition => [.one .expr]
  | _, .negation => [.one .predicate]
  | _, .connective _ => [.one .predicate, .one .predicate]
  | _, .valueSet v => [.one v.kind]
  | _, .tableRef v => [.one v.kind]
  | _, .namedTable _ => []
  | _, .subqueryTable _ => [.one .query]
  | _, .valuesTable _ => [.one .rowList]
  | _, .functionTable _ => [.one .function]
  | _, .lateralTable => [.one .tableRef]
  | _, .join v => [.one v.kind]
  | _, .crossJoin => [.one .tableRef]
  | _, .naturalJoin => [.one .tableRef]
  | _, .usingJoin _ _ => [.one .tableRef]
  | _, .onJoin _ => [.one .tableRef, .one .predicate]
  | _, .query v => [.one v.kind]
  | _, .select =>
    [.opt .distinct, .many .selectItem, .opt .tableRef, .many .join, .opt .predicate, .opt .groupBy,
      .opt .predicate, .many .windowDef, .opt .orderBy, .opt .limitOffset, .opt .locking]
  | _, .composite _ => [.many .query, .opt .orderBy, .opt .limitOffset]
  | _, .withQuery _ => [.many .cte, .one .query]
  | _, .cte _ _ _ => [.opt .query]
  | _, .aliased _ => [.one .expr]
  | _, .star => []
  | _, .qualifiedStar _ => []
  | _, .distinct => []
  | _, .distinctOn => [.many .expr]
  | _, .groupBy => [.many .expr]
  | _, .orderBy => [.many .orderItem]
  | _, .orderItem _ _ => [.one .expr]
  | _, .limitOffset _ => []
  | _, .locking _ => []
  | _, .windowDef _ => [.one .windowSpec]
  | _, .windowSpec _ => [.opt .partitionBy, .opt .orderBy, .opt .frame]
  | _, .overName _ => []
  | _, .overSpec => [.one .windowSpec]
  | _, .partitionBy => [.many .expr]
  | _, .frameFrom _ => [.one .bound]
  | _, .frameBetween _ => [.one .bound, .one .bound]
  | _, .boundAt _ => []
  | _, .boundOffset _ => [.one .expr]

/-- A form that only wraps the single node below it: a traversal hands that node's result on. -/
def isWrapper : {k : Kind} → Form k → Bool
  | _, .expr _ | _, .predicate _ | _, .valueSet _ | _, .tableRef _ | _, .join _ | _, .query _
  | _, .aliased _ | _, .overSpec => true
  | _, _ => false

end Form

end SqlTree

import SqlTree.Codec.Value
import SqlTree.Tree.Check

namespace SqlTree

/-- What fills slots in the interchange form. -/
abbrev Sources := Fill fun _ => Json

namespace Codec

/-- A node that may be missing. -/
def nullable : Option Json → Json
  | some j => j
  | none => .null

/-- The arms of a CASE. -/
def writeArms (arms : List (Json × Json)) : Json :=
  .array (arms.map fun arm => .object [("when", arm.1), ("then", arm.2)])

def child (fields : List (String × Json)) (name : String) : Decoded Json :=
  present (Json.field? name fields)

def items : Json → Decoded (List Json)
  | .array items => .ok items
  | _ => .error .malformed

def children (fields : List (String × Json)) (name : String) : Decoded (List Json) := do
  items (← child fields name)

def readArms (fs : List (String × Json)) (name : String) : Decoded (List (Json × Json)) := do
  (← children fs name).mapM fun arm => do
    let fs ← fields arm
    return (← child fs "when", ← child fs "then")

/-- The variant of a union kind, and the node in it. -/
def union {α : Type} [Enumerated α] (j : Json) : Decoded (α × Json) := do
  match ← variant j with
  | (name, some payload) => return (← present (Enumerated.ofTag? name), payload)
  | (_, none) => .error .malformed

end Codec

open Codec

/-- The object of a node from its form and the objects of the nodes below it. -/
def Form.write : {k : Kind} → (form : Form k) → Sources form.slots → Json
  | _, .expr v, parts => tagged (Enumerated.tag v) parts.1
  | _, .literal value, _ => encode value
  | _, .column c, _ => encode c
  | _, .param p, _ => encode p
  | _, .call name unique, (args, withinGroup, filter, window, _) => .object
    [("name", encode name), ("args", tagged "List" (.array args)), ("distinct", encode unique),
      ("within_group", nullable withinGroup), ("filter", nullable filter), ("over", nullable window)]
  | _, .callStar name unique, (withinGroup, filter, window, _) => .object
    [("name", encode name), ("args", .string "Star"), ("distinct", encode unique),
      ("within_group", nullable withinGroup), ("filter", nullable filter), ("over", nullable window)]
  | _, .case, (subject, arms, otherwise, _) => .object
    [("operand", nullable subject), ("whens", writeArms arms), ("else_result", nullable otherwise)]
  | _, .arithmetic op, (lhs, rhs, _) => .object [("op", encode op), ("lhs", lhs), ("rhs", rhs)]
  | _, .negate, (operand, _) => .object [("operand", operand)]
  | _, .customBinary op, (lhs, rhs, _) => .object
    [("operator", encode op), ("lhs", lhs), ("rhs", rhs)]
  | _, .customUnary op, (operand, _) => .object [("operator", encode op), ("operand", operand)]
  | _, .cast, (e, type, _) => .object [("expr", e), ("type_name", type)]
  | _, .typeName base dims zone, (modifiers, _) => .object
    [("base", encode base), ("modifiers", .array modifiers), ("array_dims", encode dims),
      ("time_zone", encode zone)]
  | _, .array, (items, _) => .object [("items", .array items)]
  | _, .row, (items, _) => .object [("items", .array items)]
  | _, .rowList, (rows, _) => .object [("rows", .array rows)]
  | _, .subquery, (q, _) => .object [("query", q)]
  | _, .collate collation, (e, _) => .object [("expr", e), ("collation", encode collation)]
  | _, .atTimeZone, (e, zone, _) => .object [("expr", e), ("zone", zone)]
  | _, .predicate v, parts => tagged (Enumerated.tag v) parts.1
  | _, .comparison op, (lhs, rhs, _) => .object [("lhs", lhs), ("op", encode op), ("rhs", rhs)]
  | _, .between symmetric, (e, low, high, _) => .object
    [("expr", e), ("low", low), ("high", high), ("symmetric", encode symmetric)]
  | _, .like negated, (e, pattern, escape, _) => .object
    [("expr", e), ("pattern", pattern), ("escape", nullable escape), ("negated", encode negated)]
  | _, .isNull negated, (e, _) => .object [("expr", e), ("negated", encode negated)]
  | _, .isDistinctFrom negated, (lhs, rhs, _) => .object
    [("lhs", lhs), ("rhs", rhs), ("negated", encode negated)]
  | _, .membership negated, (e, values, _) => .object
    [("expr", e), ("values", values), ("negated", encode negated)]
  | _, .existence negated, (q, _) => .object [("query", q), ("negated", encode negated)]
  | _, .quantified op quantifier, (lhs, q, _) => .object
    [("lhs", lhs), ("op", encode op), ("quantifier", encode quantifier), ("query", q)]
  | _, .condition, (e, _) => .object [("expr", e)]
  | _, .negation, (inner, _) => .object [("inner", inner)]
  | _, .connective op, (lhs, rhs, _) => .object [("op", encode op), ("lhs", lhs), ("rhs", rhs)]
  | _, .valueSet v, parts => tagged (Enumerated.tag v) parts.1
  | _, .tableRef v, parts => tagged (Enumerated.tag v) parts.1
  | _, .namedTable t, _ => encode t
  | _, .subqueryTable correlation, (q, _) => .object [("query", q), ("alias", encode correlation)]
  | _, .valuesTable correlation, (rows, _) => .object [("rows", rows), ("alias", encode correlation)]
  | _, .functionTable correlation, (function, _) => .object
    [("function", function), ("alias", encode correlation)]
  | _, .lateralTable, (inner, _) => .object [("inner", inner)]
  | _, .join v, parts => tagged (Enumerated.tag v) parts.1
  | _, .crossJoin, (table, _) => .object [("table", table)]
  | _, .naturalJoin, (table, _) => .object [("table", table)]
  | _, .usingJoin kind columns, (table, _) => .object
    [("kind", encode kind), ("table", table), ("columns", encode columns)]
  | _, .onJoin kind, (table, on, _) => .object [("kind", encode kind), ("table", table), ("on", on)]
  | _, .query v, parts => tagged (Enumerated.tag v) parts.1
  | _, .select,
    (unique, items, source, joins, filter, groups, having, windows, order, window, lock, _) => .object
    [("distinct", nullable unique), ("items", .array items), ("from", nullable source),
      ("joins", .array joins), ("where_clause", nullable filter), ("group_by", nullable groups),
      ("having", nullable having), ("windows", .array windows), ("order_by", nullable order),
      ("limit_offset", nullable window), ("locking", nullable lock)]
  | _, .composite ops, (terms, order, window, _) => .object
    [("terms", .array terms), ("ops", encode ops), ("order_by", nullable order),
      ("limit_offset", nullable window)]
  | _, .withQuery recursive, (ctes, body, _) => .object
    [("ctes", .array ctes), ("body", body), ("recursive", encode recursive)]
  | _, .cte name columns materialization, (body, _) => .object
    [("name", encode name), ("columns", encode columns), ("body", nullable body),
      ("materialization", encode materialization)]
  | _, .aliased name, (e, _) => tagged "Expr" (.object [("expr", e), ("alias", encode name)])
  | _, .star, _ => .string "Star"
  | _, .qualifiedStar name, _ => tagged "QualifiedStar" (encode name)
  | _, .distinct, _ => .string "Distinct"
  | _, .distinctOn, (items, _) => tagged "On" (.array items)
  | _, .groupBy, (items, _) => .object [("items", .array items)]
  | _, .orderBy, (items, _) => .object [("items", .array items)]
  | _, .orderItem direction nulls, (e, _) => .object
    [("expr", e), ("direction", encode direction), ("nulls", encode nulls)]
  | _, .limitOffset w, _ => encode w
  | _, .locking l, _ => encode l
  | _, .windowDef name, (spec, _) => .object [("name", encode name), ("spec", spec)]
  | _, .windowSpec exclude, (partition, order, frame, _) => .object
    [("partition_by", nullable partition), ("order_by", nullable order), ("frame", nullable frame),
      ("exclude", encode exclude)]
  | _, .overName name, _ => tagged "Ref" (encode name)
  | _, .overSpec, (spec, _) => tagged "Def" spec
  | _, .partitionBy, (items, _) => .object [("exprs", .array items)]
  | _, .frameFrom unit, (bound, _) => tagged "Single" (.object [("unit", encode unit), ("bound", bound)])
  | _, .frameBetween unit, (start, stop, _) =>
    tagged "Between" (.object [("unit", encode unit), ("start", start), ("end", stop)])
  | _, .boundAt edge, _ => .string (Enumerated.tag edge)
  | _, .boundOffset side, (e, _) => tagged (Enumerated.tag side) e

/-- The form of a node of a given kind, and where the nodes below it stand. -/
def Form.read : (k : Kind) → Json → Decoded ((form : Form k) × Sources form.slots)
  | .expr, j => do
    let (v, payload) ← union j
    return ⟨.expr v, (payload, ())⟩
  | .literal, j => do return ⟨.literal (← decode j), ()⟩
  | .column, j => do return ⟨.column (← decode j), ()⟩
  | .param, j => do return ⟨.param (← decode j), ()⟩
  | .function, j => do
    let fs ← fields j
    let name ← required fs "name"
    let unique ← required fs "distinct"
    let (withinGroup, filter, window) :=
      (optional fs "within_group", optional fs "filter", optional fs "over")
    match ← variant (← child fs "args") with
    | ("Star", payload) =>
      if bare payload then return ⟨.callStar name unique, (withinGroup, filter, window, ())⟩
      else .error .malformed
    | ("List", some args) =>
      return ⟨.call name unique, (← items args, withinGroup, filter, window, ())⟩
    | _ => .error .malformed
  | .case, j => do
    let fs ← fields j
    return ⟨.case, (optional fs "operand", ← readArms fs "whens", optional fs "else_result", ())⟩
  | .arithmetic, j => do
    let fs ← fields j
    return ⟨.arithmetic (← required fs "op"), (← child fs "lhs", ← child fs "rhs", ())⟩
  | .negate, j => do
    let fs ← fields j
    return ⟨.negate, (← child fs "operand", ())⟩
  | .customBinary, j => do
    let fs ← fields j
    return ⟨.customBinary (← required fs "operator"), (← child fs "lhs", ← child fs "rhs", ())⟩
  | .customUnary, j => do
    let fs ← fields j
    return ⟨.customUnary (← required fs "operator"), (← child fs "operand", ())⟩
  | .cast, j => do
    let fs ← fields j
    return ⟨.cast, (← child fs "expr", ← child fs "type_name", ())⟩
  | .typeName, j => do
    let fs ← fields j
    let modifiers ← match Json.field? "modifiers" fs with
      | some m => items m
      | none => pure []
    return ⟨.typeName (← required fs "base") (← defaulted fs "array_dims" 0)
      (← defaulted fs "time_zone" .none), (modifiers, ())⟩
  | .array, j => do return ⟨.array, (← children (← fields j) "items", ())⟩
  | .row, j => do return ⟨.row, (← children (← fields j) "items", ())⟩
  | .rowList, j => do return ⟨.rowList, (← children (← fields j) "rows", ())⟩
  | .subquery, j => do return ⟨.subquery, (← child (← fields j) "query", ())⟩
  | .collate, j => do
    let fs ← fields j
    return ⟨.collate (← required fs "collation"), (← child fs "expr", ())⟩
  | .atTimeZone, j => do
    let fs ← fields j
    return ⟨.atTimeZone, (← child fs "expr", ← child fs "zone", ())⟩
  | .predicate, j => do
    let (v, payload) ← union j
    return ⟨.predicate v, (payload, ())⟩
  | .comparison, j => do
    let fs ← fields j
    return ⟨.comparison (← required fs "op"), (← child fs "lhs", ← child fs "rhs", ())⟩
  | .between, j => do
    let fs ← fields j
    return ⟨.between (← required fs "symmetric"),
      (← child fs "expr", ← child fs "low", ← child fs "high", ())⟩
  | .like, j => do
    let fs ← fields j
    return ⟨.like (← required fs "negated"),
      (← child fs "expr", ← child fs "pattern", optional fs "escape", ())⟩
  | .isNull, j => do
    let fs ← fields j
    return ⟨.isNull (← required fs "negated"), (← child fs "expr", ())⟩
  | .isDistinctFrom, j => do
    let fs ← fields j
    return ⟨.isDistinctFrom (← required fs "negated"), (← child fs "lhs", ← child fs "rhs", ())⟩
  | .membership, j => do
    let fs ← fields j
    return ⟨.membership (← required fs "negated"), (← child fs "expr", ← child fs "values", ())⟩
  | .existence, j => do
    let fs ← fields j
    return ⟨.existence (← required fs "negated"), (← child fs "query", ())⟩
  | .quantified, j => do
    let fs ← fields j
    return ⟨.quantified (← required fs "op") (← required fs "quantifier"),
      (← child fs "lhs", ← child fs "query", ())⟩
  | .condition, j => do return ⟨.condition, (← child (← fields j) "expr", ())⟩
  | .negation, j => do return ⟨.negation, (← child (← fields j) "inner", ())⟩
  | .connective, j => do
    let fs ← fields j
    return ⟨.connective (← required fs "op"), (← child fs "lhs", ← child fs "rhs", ())⟩
  | .valueSet, j => do
    let (v, payload) ← union j
    return ⟨.valueSet v, (payload, ())⟩
  | .tableRef, j => do
    let (v, payload) ← union j
    return ⟨.tableRef v, (payload, ())⟩
  | .namedTable, j => do return ⟨.namedTable (← decode j), ()⟩
  | .subqueryTable, j => do
    let fs ← fields j
    return ⟨.subqueryTable (← optionalValue fs "alias"), (← child fs "query", ())⟩
  | .valuesTable, j => do
    let fs ← fields j
    return ⟨.valuesTable (← optionalValue fs "alias"), (← child fs "rows", ())⟩
  | .functionTable, j => do
    let fs ← fields j
    return ⟨.functionTable (← optionalValue fs "alias"), (← child fs "function", ())⟩
  | .lateralTable, j => do return ⟨.lateralTable, (← child (← fields j) "inner", ())⟩
  | .join, j => do
    let (v, payload) ← union j
    return ⟨.join v, (payload, ())⟩
  | .crossJoin, j => do return ⟨.crossJoin, (← child (← fields j) "table", ())⟩
  | .naturalJoin, j => do return ⟨.naturalJoin, (← child (← fields j) "table", ())⟩
  | .usingJoin, j => do
    let fs ← fields j
    return ⟨.usingJoin (← required fs "kind") (← required fs "columns"), (← child fs "table", ())⟩
  | .onJoin, j => do
    let fs ← fields j
    return ⟨.onJoin (← required fs "kind"), (← child fs "table", ← child fs "on", ())⟩
  | .query, j => do
    let (v, payload) ← union j
    return ⟨.query v, (payload, ())⟩
  | .select, j => do
    let fs ← fields j
    return ⟨.select,
      (optional fs "distinct", ← children fs "items", optional fs "from", ← children fs "joins",
        optional fs "where_clause", optional fs "group_by", optional fs "having",
        ← children fs "windows", optional fs "order_by", optional fs "limit_offset",
        optional fs "locking", ())⟩
  | .composite, j => do
    let fs ← fields j
    return ⟨.composite (← required fs "ops"),
      (← children fs "terms", optional fs "order_by", optional fs "limit_offset", ())⟩
  | .withQuery, j => do
    let fs ← fields j
    return ⟨.withQuery (← defaulted fs "recursive" false),
      (← children fs "ctes", ← child fs "body", ())⟩
  | .cte, j => do
    let fs ← fields j
    return ⟨.cte (← required fs "name") (← required fs "columns") (← required fs "materialization"),
      (optional fs "body", ())⟩
  | .selectItem, j => do
    match ← variant j with
    | ("Star", payload) => if bare payload then return ⟨.star, ()⟩ else .error .malformed
    | ("QualifiedStar", some name) => return ⟨.qualifiedStar (← decode name), ()⟩
    | ("Expr", some inner) =>
      let fs ← fields inner
      return ⟨.aliased (← optionalValue fs "alias"), (← child fs "expr", ())⟩
    | _ => .error .malformed
  | .distinct, j => do
    match ← variant j with
    | ("Distinct", payload) => if bare payload then return ⟨.distinct, ()⟩ else .error .malformed
    | ("On", some on) => return ⟨.distinctOn, (← items on, ())⟩
    | _ => .error .malformed
  | .groupBy, j => do return ⟨.groupBy, (← children (← fields j) "items", ())⟩
  | .orderBy, j => do return ⟨.orderBy, (← children (← fields j) "items", ())⟩
  | .orderItem, j => do
    let fs ← fields j
    return ⟨.orderItem (← optionalValue fs "direction") (← optionalValue fs "nulls"),
      (← child fs "expr", ())⟩
  | .limitOffset, j => do return ⟨.limitOffset (← decode j), ()⟩
  | .locking, j => do return ⟨.locking (← decode j), ()⟩
  | .windowDef, j => do
    let fs ← fields j
    return ⟨.windowDef (← required fs "name"), (← child fs "spec", ())⟩
  | .windowSpec, j => do
    let fs ← fields j
    return ⟨.windowSpec (← optionalValue fs "exclude"),
      (optional fs "partition_by", optional fs "order_by", optional fs "frame", ())⟩
  | .overClause, j => do
    match ← variant j with
    | ("Ref", some name) => return ⟨.overName (← decode name), ()⟩
    | ("Def", some spec) => return ⟨.overSpec, (spec, ())⟩
    | _ => .error .malformed
  | .partitionBy, j => do return ⟨.partitionBy, (← children (← fields j) "exprs", ())⟩
  | .frame, j => do
    match ← variant j with
    | ("Single", some payload) =>
      let fs ← fields payload
      return ⟨.frameFrom (← required fs "unit"), (← child fs "bound", ())⟩
    | ("Between", some payload) =>
      let fs ← fields payload
      return ⟨.frameBetween (← required fs "unit"), (← child fs "start", ← child fs "end", ())⟩
    | _ => .error .malformed
  | .bound, j => do
    let (name, payload) ← variant j
    match Enumerated.ofTag? name with
    | some edge => if bare payload then return ⟨.boundAt edge, ()⟩ else .error .malformed
    | none => return ⟨.boundOffset (← present (Enumerated.ofTag? name)), (← present payload, ())⟩

/-- The nodes that fill slots, each decoded by a given function. -/
def Forest.decode (node : (k : Kind) → Json → Decoded (Tree k)) :
    (slots : List Slot) → Sources slots → Decoded (Forest slots)
  | [], _ => .ok .nil
  | .one k :: slots, (j, rest) => do
    let t ← node k j
    return .one t (← decode node slots rest)
  | .opt _ :: slots, (none, rest) => do return .absent (← decode node slots rest)
  | .opt k :: slots, (some j, rest) => do
    let t ← node k j
    return .present t (← decode node slots rest)
  | .many k :: slots, (js, rest) => do
    let ts ← js.mapM (node k)
    return .ofList ts (← decode node slots rest)
  | .arms :: slots, (js, rest) => do
    let arms ← js.mapM fun j => do
      let c ← node .expr j.1
      return (c, ← node .expr j.2)
    return .ofArms arms (← decode node slots rest)

namespace Tree

/-- Decodes a node whose objects are nested less deep than `depth`. -/
def decodeWithin : (depth : Nat) → (k : Kind) → Json → Decoded (Tree k)
  | 0, _, _ => .error .malformed
  | depth + 1, k, j => do
    let ⟨form, sources⟩ ← Form.read k j
    let below ← Forest.decode (decodeWithin depth) form.slots sources
    (form.check sources).decoded
    return .node form below

def toJson {k : Kind} (t : Tree k) : Json :=
  t.fold Form.write

def ofJson (k : Kind) (j : Json) : Decoded (Tree k) :=
  decodeWithin (j.depth + 1) k j

end Tree

instance {k : Kind} : Coded (Tree k) where
  encode := Tree.toJson
  decode := Tree.ofJson k

end SqlTree

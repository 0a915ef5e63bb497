import SqlTree.Render.Condition
import SqlTree.Render.Query
import SqlTree.Render.Source
import SqlTree.Render.Window

namespace SqlTree

/-- The standard document of a node from its form and the documents of the nodes below it. -/
def Render.standard (style : Style) : {k : Kind} → (form : Form k) → Fill Drawn form.slots → Doc
  | _, .expr _, parts => parts.1.value
  | _, .literal value, _ => style.literalDoc value
  | _, .column c, _ => style.columnDoc c
  | _, .param p, _ => style.paramDoc p
  | _, .call name distinct, (args, withinGroup, filter, window, _) =>
    Render.call style name distinct (Render.list args) (Render.callTail withinGroup filter window)
  | _, .callStar name distinct, (withinGroup, filter, window, _) =>
    Render.call style name distinct (Doc.text "*") (Render.callTail withinGroup filter window)
  | _, .case, (subject, arms, otherwise, _) => Render.case subject arms otherwise
  | _, .arithmetic op, (lhs, rhs, _) => Render.arithmetic style op lhs rhs
  | _, .negate, (operand, _) => Render.negate operand
  | _, .customBinary op, (lhs, rhs, _) => Render.customBinary style op lhs rhs
  | _, .customUnary op, (operand, _) => Render.customUnary style op operand
  | _, .cast, (e, typeName, _) =>
    Doc.text "CAST(" ++ e.value ++ Doc.text " AS " ++ typeName.value ++ Doc.text ")"
  | _, .typeName base dims zone, (modifiers, _) => Render.typeName style base dims zone modifiers
  | _, .array, (items, _) =>
    Doc.require .arrayLiteral ++ Doc.text "ARRAY[" ++ Render.list items ++ Doc.text "]"
  | _, .row, (items, _) => Doc.parens (Render.list items)
  | _, .rowList, (rows, _) => Render.list rows
  | _, .subquery, (query, _) => Doc.block query.value
  | _, .collate collation, (e, _) => Render.collate style collation e
  | _, .atTimeZone, (e, zone, _) => Render.atTimeZone e zone
  | _, .predicate _, parts => parts.1.value
  | _, .comparison op, (lhs, rhs, _) => Render.comparison style op lhs rhs
  | _, .between symmetric, (e, low, high, _) => Render.between symmetric e low high
  | _, .like negated, (e, pattern, escape, _) => Render.like negated e pattern escape
  | _, .isNull negated, (e, _) => Render.isNull negated e
  | _, .isDistinctFrom negated, (lhs, rhs, _) => Render.isDistinctFrom negated lhs rhs
  | _, .membership negated, (e, values, _) => Render.membership negated e values
  | _, .existence negated, (query, _) => Render.existence negated query
  | _, .quantified op quantifier, (e, query, _) => Render.quantified style op quantifier e query
  | _, .condition, (e, _) => e.value
  | _, .negation, (p, _) => Render.negation p
  | _, .connective op, (lhs, rhs, _) => Render.connective op lhs rhs
  | _, .valueSet .query, (query, _) => Doc.block query.value
  | _, .valueSet .row, (row, _) => row.value
  | _, .valueSet .rowList, (rows, _) => Doc.parens rows.value
  | _, .tableRef _, parts => parts.1.value
  | _, .namedTable t, _ => Render.namedTable style t
  | _, .subqueryTable correlation, (query, _) => Doc.block query.value ++ Render.tableAlias style correlation
  | _, .valuesTable correlation, (rows, _) =>
    Doc.parens (Doc.text "VALUES " ++ rows.value) ++ Render.tableAlias style correlation
  | _, .functionTable correlation, (function, _) => function.value ++ Render.tableAlias style correlation
  | _, .lateralTable, (table, _) => Doc.require .lateral ++ Doc.text "LATERAL " ++ table.value
  | _, .join _, parts => parts.1.value
  | _, .crossJoin, (table, _) => Doc.text "CROSS JOIN " ++ table.value
  | _, .naturalJoin, (table, _) => Doc.text "NATURAL JOIN " ++ table.value
  | _, .usingJoin kind columns, (table, _) => Render.usingJoin style kind columns table
  | _, .onJoin kind, (table, on, _) => Render.onJoin kind table on
  | _, .query _, parts => parts.1.value
  | _, .select, parts => Render.select style (.ofFill parts)
  | _, .composite ops, (queries, orderBy, limitOffset, _) =>
    Render.composite style ops queries orderBy limitOffset
  | _, .withQuery recursive, (ctes, body, _) => Render.withQuery recursive ctes body
  | _, .cte name columns m, (body, _) => Render.cte style name columns m body
  | _, .aliased name, (e, _) =>
    e.value ++ Doc.ofOption name fun a => Doc.text " AS " ++ style.identDoc a
  | _, .star, _ => Doc.text "*"
  | _, .qualifiedStar name, _ => style.nameDoc name ++ Doc.text ".*"
  | _, .distinct, _ => Doc.text "DISTINCT"
  | _, .distinctOn, (items, _) =>
    Doc.require .distinctOn ++ Doc.text "DISTINCT ON " ++ Doc.parens (Render.list items)
  | _, .groupBy, (items, _) => Doc.text "GROUP BY " ++ Render.list items
  | _, .orderBy, (items, _) => Doc.text "ORDER BY " ++ Render.list items
  | _, .orderItem dir nulls, (e, _) => Render.orderItem style dir nulls e
  | _, .limitOffset _, _ => Doc.empty
  | _, .locking l, _ => Render.locking style l
  | _, .windowDef name, (spec, _) => style.identDoc name ++ Doc.text " AS " ++ Doc.parens spec.value
  | _, .windowSpec exclude, (partitionBy, orderBy, frame, _) =>
    Render.windowSpec exclude partitionBy orderBy frame
  | _, .overName name, _ => style.identDoc name
  | _, .overSpec, (spec, _) => Doc.parens spec.value
  | _, .partitionBy, (items, _) => Doc.text "PARTITION BY " ++ Render.list items
  | _, .frameFrom unit, (bound, _) => Render.frameUnit unit ++ bound.value
  | _, .frameBetween unit, (start, stop, _) => Render.frameBetween unit start stop
  | _, .boundAt edge, _ => Doc.text edge.keyword
  | _, .boundOffset side, (e, _) => e.value ++ Doc.text (" " ++ side.keyword)

/-- The document of a tree: at each node the style's renderer decides about the standard document. -/
def Tree.doc (style : Style) {k : Kind} (t : Tree k) : Doc :=
  t.para fun form parts => style.renderer form (Render.standard style form parts)

end SqlTree

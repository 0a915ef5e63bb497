import SqlTree.Build.Select
import SqlTree.Codec.Part
import SqlTree.Tree.View

namespace SqlTree

namespace Codec

/-- A node that is of one variant: a question that is true of it, and what is in it. -/
def variantView (name : String) (inner : Json) : List (String × Json) :=
  [("is", .array [.string ("is_" ++ name)]), ("as", .object [("as_" ++ name, inner)])]

/-- The name of a predicate's variant in views. -/
def predicateName : PredicateVariant → String
  | .isDistinctFrom => "distinct_from"
  | v => v.kind.label

/-- The name of a variant in views when it is not the name of its kind. -/
def variantName {α : Type} [Enumerated α] (variant : α) : String :=
  Text.lower (Enumerated.tag variant)

def itemView (item : SelectItem) : List (String × Json) :=
  let view := match item.form with
    | .star => [("is", .array []), ("as", .object [])]
    | .qualifiedStar name => variantView "qualified_star" (encode name)
    | .aliased _ => variantView "expr" (encode (AliasedExpr.ofItem? item))
  view ++ [("is_star", .bool (item == SelectItem.star))]

end Codec

open Codec

/-- The view of a node, if nodes of its kind have one. -/
def Tree.view? : {k : Kind} → Tree k → Option (List (String × Json))
  | .expr, Expr.of v t => some (variantView v.kind.label (encode t))
  | .predicate, Predicate.of v t => some (variantView (predicateName v) (encode t))
  | .query, Query.of v t => some (variantView v.kind.label (encode t))
  | .tableRef, TableRef.of v t => some (variantView (variantName v) (encode t))
  | .join, Join.of v t =>
    some (variantView (variantName v) (encode t) ++ [("table", encode (Join.table (.of v t)))])
  | .selectItem, item => some (itemView item)
  | .overClause, .node (.overName name) _ =>
    some [("is", .array [.string "is_ref"]), ("as", .object [("as_ref_name", encode name)])]
  | .overClause, .node .overSpec (.one spec .nil) => some (variantView "def" (encode spec))
  | .valueSet, values =>
    some [("subquery", encode (ValueSet.query? values)), ("row", encode (ValueSet.row? values)),
      ("row_list", encode (ValueSet.rowList? values))]
  | .bound, b =>
    some [("offset", encode (Bound.offset? b)), ("is_unbounded", .bool (Bound.isUnbounded b))]
  | .frame, f =>
    some [("unit", encode (Frame.unit f)), ("is_between", .bool (Frame.isBetween f)),
      ("start", encode (Frame.start f)), ("end", encode (Frame.stop? f))]
  | .limitOffset, .limitOffset w => some [("is_empty", .bool w.isEmpty)]
  | .literal, .literal l => some [("is_null", .bool l.isNull)]
  | .param, .param p =>
    some [("kind", encode p.kind), ("value", encode p.value), ("name", encode p.name?),
      ("index", encode p.index?)]
  | _, _ => none

end SqlTree

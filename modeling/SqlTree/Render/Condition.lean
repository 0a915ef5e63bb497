import SqlTree.Render.Expression

namespace SqlTree

/-- The connective of a predicate that joins two others. -/
def Predicate.connective? : Predicate → Option LogicalOp
  | .of .connective (.node (.connective op) _) => some op
  | _ => none

namespace Render

/-- A side of a condition: the loosest operator expressions are in parentheses. -/
def side (e : Drawn .expr) : Doc :=
  operand (fun p => p = 0) e

def comparison (style : Style) (op : ComparisonOp) (lhs rhs : Drawn .expr) : Doc :=
  side lhs ++ Doc.text (" " ++ style.comparison op ++ " ") ++ side rhs

def between (symmetric : Bool) (e low high : Drawn .expr) : Doc :=
  side e ++ Doc.text " BETWEEN " ++
    Doc.when symmetric (Doc.require .symmetricBetween ++ Doc.text "SYMMETRIC ") ++
    side low ++ Doc.text " AND " ++ side high

def like (negated : Bool) (e pattern : Drawn .expr) (escape : Option (Drawn .expr)) : Doc :=
  side e ++ Doc.text (if negated then " NOT LIKE " else " LIKE ") ++ side pattern ++
    Doc.ofOption escape (fun x => Doc.text " ESCAPE " ++ side x)

def isNull (negated : Bool) (e : Drawn .expr) : Doc :=
  side e ++ Doc.text (if negated then " IS NOT NULL" else " IS NULL")

def isDistinctFrom (negated : Bool) (lhs rhs : Drawn .expr) : Doc :=
  Doc.require .isDistinctFrom ++ side lhs ++
    Doc.text (if negated then " IS NOT DISTINCT FROM " else " IS DISTINCT FROM ") ++ side rhs

def membership (negated : Bool) (e : Drawn .expr) (values : Drawn .valueSet) : Doc :=
  side e ++ Doc.text (if negated then " NOT IN " else " IN ") ++ values.value

def existence (negated : Bool) (query : Drawn .query) : Doc :=
  Doc.text (if negated then "NOT EXISTS " else "EXISTS ") ++ Doc.block query.value

def quantified (style : Style) (op : ComparisonOp) (quantifier : Quantifier) (e : Drawn .expr)
    (query : Drawn .query) : Doc :=
  side e ++ Doc.text (" " ++ style.comparison op) ++
    Doc.text (match quantifier with
      | .any => " ANY "
      | .all => " ALL ") ++
    Doc.block query.value

/-- Two predicates joined by a connective are negated in parentheses. -/
def negation (p : Drawn .predicate) : Doc :=
  Doc.text "NOT " ++
    match Predicate.connective? p.tree with
    | some _ => Doc.parens p.value
    | none => p.value

/-- AND binds tighter than OR, so an OR below an AND is in parentheses. -/
def joined (op : LogicalOp) (p : Drawn .predicate) : Doc :=
  if op = .and ∧ Predicate.connective? p.tree = some .or then Doc.parens p.value else p.value

def connective (op : LogicalOp) (lhs rhs : Drawn .predicate) : Doc :=
  joined op lhs ++
    Doc.text (match op with
      | .and => " AND "
      | .or => " OR ") ++
    joined op rhs

end Render

end SqlTree

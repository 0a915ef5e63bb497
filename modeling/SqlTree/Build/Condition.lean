import SqlTree.Build.Expression

namespace SqlTree

namespace Predicate

def comparison (op : ComparisonOp) (lhs rhs : Expr) : Predicate :=
  .of .comparison (.node (.comparison op) (.one lhs (.one rhs .nil)))

def between (e low high : Expr) : Predicate :=
  .of .between (.node (.between false) (.one e (.one low (.one high .nil))))

def like (e pattern : Expr) : Predicate :=
  .of .like (.node (.like false) (.one e (.one pattern (.absent .nil))))

def isNull (e : Expr) : Predicate :=
  .of .isNull (.node (.isNull false) (.one e .nil))

def isNotNull (e : Expr) : Predicate :=
  .of .isNull (.node (.isNull true) (.one e .nil))

def membership (negated : Bool) (e : Expr) (values : ValueSet) : Predicate :=
  .of .membership (.node (.membership negated) (.one e (.one values .nil)))

/-- Membership in a list of values. -/
def memberOf (e : Expr) (values : List Expr) : Predicate :=
  membership false e (.of .row (Row.ofList values))

def existence (negated : Bool) (q : Query) : Predicate :=
  .of .existence (.node (.existence negated) (.one q .nil))

def quantified (op : ComparisonOp) (quantifier : Quantifier) (e : Expr) (q : Query) : Predicate :=
  .of .quantified (.node (.quantified op quantifier) (.one e (.one q .nil)))

def connective (op : LogicalOp) (lhs rhs : Predicate) : Predicate :=
  .of .connective (.node (.connective op) (.one lhs (.one rhs .nil)))

def negation (p : Predicate) : Predicate :=
  .of .negation (.node .negation (.one p .nil))

/-- An expression as a condition. A condition in an expression is taken out of it. -/
def ofExpr : Expr → Predicate
  | .of .predicate p => p
  | e => .of .condition (.node .condition (.one e .nil))

/-- Conditions joined from the left; none of an empty list. -/
def joined? (op : LogicalOp) : List Predicate → Option Predicate
  | [] => none
  | p :: rest => some (rest.foldl (connective op) p)

end Predicate

end SqlTree

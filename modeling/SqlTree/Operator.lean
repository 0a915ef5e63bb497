import SqlTree.Name

namespace SqlTree

inductive ArithmeticOp where
  | add
  | sub
  | mul
  | div
  | mod
  | pow
  deriving DecidableEq, Repr

namespace ArithmeticOp

instance : Enumerated ArithmeticOp where
  members := [.add, .sub, .mul, .div, .mod, .pow]
  tag
    | .add => "Add"
    | .sub => "Sub"
    | .mul => "Mul"
    | .div => "Div"
    | .mod => "Mod"
    | .pow => "Pow"

/-- Binding strength; a higher one binds tighter. -/
def precedence : ArithmeticOp → Nat
  | .add | .sub => 1
  | .mul | .div | .mod => 2
  | .pow => 3

/-- Whether `a op (b op c)` is `(a op b) op c`. -/
def isAssociative : ArithmeticOp → Bool
  | .add | .mul => true
  | _ => false

def symbol : ArithmeticOp → String
  | .add => "+"
  | .sub => "-"
  | .mul => "*"
  | .div => "/"
  | .mod => "%"
  | .pow => "^"

end ArithmeticOp

inductive ComparisonOp where
  | eq
  | ne
  | lt
  | lte
  | gt
  | gte
  deriving DecidableEq, Repr

namespace ComparisonOp

instance : Enumerated ComparisonOp where
  members := [.eq, .ne, .lt, .lte, .gt, .gte]
  tag
    | .eq => "Eq"
    | .ne => "Ne"
    | .lt => "Lt"
    | .lte => "Lte"
    | .gt => "Gt"
    | .gte => "Gte"

def symbol : ComparisonOp → String
  | .eq => "="
  | .ne => "<>"
  | .lt => "<"
  | .lte => "<="
  | .gt => ">"
  | .gte => ">="

end ComparisonOp

inductive LogicalOp where
  | and
  | or
  deriving DecidableEq, Repr

instance : Enumerated LogicalOp where
  members := [.and, .or]
  tag
    | .and => "And"
    | .or => "Or"

inductive Quantifier where
  | any
  | all
  deriving DecidableEq, Repr

instance : Enumerated Quantifier where
  members := [.any, .all]
  tag
    | .any => "Any"
    | .all => "All"

/-- An operator of the user's own, bare or in a schema. -/
structure CustomOperator where
  schema : Option QualifiedName
  symbol : String
  deriving DecidableEq, Repr

namespace CustomOperator

/-- The characters of which operator symbols are made. -/
def symbolChars : List Char :=
  "+-*/<>=~!@#%^&|`?".toList

/-- A symbol is not blank and made of symbol characters. -/
def check (op : CustomOperator) : Checked Unit :=
  if Text.isBlank op.symbol then .error .blankOperator
  else if op.symbol.toList.all symbolChars.contains then .ok ()
  else .error (.operatorSymbol op.symbol)

def make (schema : Option QualifiedName) (symbol : String) : Checked CustomOperator := do
  let op : CustomOperator := ⟨schema, symbol⟩
  op.check
  return op

end CustomOperator

end SqlTree

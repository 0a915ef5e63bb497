import SqlTree.Tree.Check
import SqlTree.Tree.Node

namespace SqlTree

namespace Expr

/-- A column by its bare name. -/
def ofColumn (name : String) : Checked Expr := do
  return .column ⟨none, ← Identifier.make name⟩

/-- A column of a table. -/
def ofColumnOf (qualifier name : String) : Checked Expr := do
  let qualifier ← Identifier.make qualifier
  return .column ⟨some qualifier, ← Identifier.make name⟩

def null : Expr :=
  .literal .null

/-- An anonymous parameter that carries its value. -/
def ofValue (value : Literal) : Expr :=
  .param (Param.anonymous.withValue value)

/-- A parameter that the caller binds by its name. -/
def ofParamName (name : String) : Checked Expr := do
  return .param (← Param.named name)

def arithmetic (op : ArithmeticOp) (lhs rhs : Expr) : Expr :=
  .of .arithmetic (.node (.arithmetic op) (.one lhs (.one rhs .nil)))

def negate (operand : Expr) : Expr :=
  .of .negate (.node .negate (.one operand .nil))

def customBinary (op : CustomOperator) (lhs rhs : Expr) : Expr :=
  .of .customBinary (.node (.customBinary op) (.one lhs (.one rhs .nil)))

def customUnary (op : CustomOperator) (operand : Expr) : Expr :=
  .of .customUnary (.node (.customUnary op) (.one operand .nil))

def cast (e : Expr) (typeName : Tree .typeName) : Expr :=
  .of .cast (.node .cast (.one e (.one typeName .nil)))

def collate (e : Expr) (collation : QualifiedName) : Expr :=
  .of .collate (.node (.collate collation) (.one e .nil))

def atTimeZone (e zone : Expr) : Expr :=
  .of .atTimeZone (.node .atTimeZone (.one e (.one zone .nil)))

def subquery (q : Query) : Expr :=
  .of .subquery (.node .subquery (.one q .nil))

end Expr

def Row.ofList (items : List Expr) : Tree .row :=
  .node .row (.ofList items .nil)

/-- A list of rows, which must not be empty. -/
def RowList.make (rows : List (Tree .row)) : Checked (Tree .rowList) :=
  Tree.make .rowList (rows, ())

/-- A type by its keyword or name. Keywords are checked. -/
def TypeName.make (base : TypeBase) (modifiers : List Expr) (dims : UInt32) (zone : TimeZoneSpec) :
    Checked (Tree .typeName) :=
  Tree.make (.typeName base dims zone) (modifiers, ())

/-- A CASE, with or without a subject, of at least one arm. -/
def Case.make (subject : Option Expr) (arms : List (Expr × Expr)) (otherwise : Option Expr) :
    Checked (Tree .case) :=
  Tree.make .case (subject, arms, otherwise, ())

end SqlTree

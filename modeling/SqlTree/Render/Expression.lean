import SqlTree.Dialect
import SqlTree.Tree.Node

namespace SqlTree

/-- A node and the document it is written as. -/
abbrev Drawn := Part Doc

namespace Literal

/-- The construct that a literal needs a dialect to have. -/
def construct? : Literal → Option Construct
  | .bitString _ => some .bitString
  | .hexString _ => some .hexString
  | .escapeString _ => some .escapeString
  | .dollarString _ => some .dollarString
  | _ => none

end Literal

namespace Style

/-- A literal as text. -/
def literalText (style : Style) : Literal → String
  | .null => "NULL"
  | .boolean b => style.booleans.text b
  | .integer n => toString n.toInt
  | .decimal d => d.text
  | .string s => Text.quoteString s
  | .date d => "DATE '" ++ d.text ++ "'"
  | .time t => "TIME '" ++ t.text ++ "'"
  | .timestamp t => "TIMESTAMP '" ++ t.textWith " " ++ "'"
  | .interval s => "INTERVAL " ++ Text.quoteString s
  | .bitString bits => "B'" ++ bits ++ "'"
  | .hexString digits => "X'" ++ digits ++ "'"
  | .escapeString s => "E" ++ Text.quoteString s
  | .dollarString s => s.delimiter ++ s.body ++ s.delimiter

/-- The standard document of a literal. -/
def literalDoc (style : Style) (value : Literal) : Doc :=
  Doc.ofOption value.construct? .require ++ Doc.text (style.literalText value)

def identDoc (style : Style) (i : Identifier) : Doc :=
  Doc.text (style.quoter.quoteIfNeeded i)

def nameDoc (style : Style) (n : QualifiedName) : Doc :=
  Doc.text (style.quoter.qualify n.parts)

def identsDoc (style : Style) (is : List Identifier) : Doc :=
  Doc.commas (is.map style.identDoc)

def columnDoc (style : Style) (c : ColumnRef) : Doc :=
  Doc.ofOption c.qualifier (fun q => style.identDoc q ++ Doc.text ".") ++ style.identDoc c.name

/-- A parameter. When values are not bound, its value is written as any literal is. -/
def paramDoc (style : Style) (p : Param) : Doc :=
  Doc.param p
    (match p.value with
    | some value => style.renderer (.literal value) (style.literalDoc value)
    | none => Doc.text p.kind.text)

def operatorDoc (style : Style) (op : CustomOperator) : Doc :=
  Doc.require .customOperator ++
    match op.schema with
    | some schema =>
      Doc.text "OPERATOR(" ++ style.nameDoc schema ++ Doc.text "." ++ Doc.text op.symbol ++ Doc.text ")"
    | none => Doc.text op.symbol

end Style

namespace Expr

/-- The operator of an arithmetic expression. -/
def arithmeticOp? : Expr → Option ArithmeticOp
  | .of .arithmetic (.node (.arithmetic op) _) => some op
  | _ => none

/-- The binding strength of an operator expression; nothing for an expression that stands by itself. -/
def binding? : Expr → Option Nat
  | .of .arithmetic (.node (.arithmetic op) _) => some op.precedence
  | .of .negate _ => some 4
  | .of .customBinary _ | .of .customUnary _ | .of .predicate _ => some 0
  | _ => none

end Expr

namespace Render

/-- The documents of nodes with commas between them. -/
def list {k : Kind} (parts : List (Drawn k)) : Doc :=
  Doc.commas (parts.map (·.value))

/-- An operand, in parentheses when its binding strength asks for them. -/
def operand (wrap : Nat → Bool) (e : Drawn .expr) : Doc :=
  match Expr.binding? e.tree with
  | some strength => if wrap strength then Doc.parens e.value else e.value
  | none => e.value

/-- An operand that is in parentheses whenever it is an operator expression. -/
def tight (e : Drawn .expr) : Doc :=
  operand (fun _ => true) e

/-- What follows the arguments of a call. -/
def callTail (withinGroup : Option (Drawn .orderBy)) (filter : Option (Drawn .predicate))
    (window : Option (Drawn .overClause)) : Doc :=
  Doc.ofOption withinGroup (fun o =>
      Doc.require .withinGroup ++ Doc.text " WITHIN GROUP " ++ Doc.parens o.value) ++
    (Doc.ofOption filter (fun p =>
        Doc.require .filter ++ Doc.text " FILTER " ++ Doc.parens (Doc.text "WHERE " ++ p.value)) ++
      Doc.ofOption window (fun o => Doc.text " OVER " ++ o.value))

def call (style : Style) (name : QualifiedName) (distinct : Bool) (arguments tail : Doc) : Doc :=
  style.nameDoc name ++ Doc.parens (Doc.when distinct (Doc.text "DISTINCT ") ++ arguments) ++ tail

def case (subject : Option (Drawn .expr)) (arms : List (Drawn .expr × Drawn .expr))
    (otherwise : Option (Drawn .expr)) : Doc :=
  Doc.text "CASE" ++ Doc.ofOption subject (fun e => Doc.text " " ++ e.value) ++
    Doc.concat (arms.map fun arm =>
      Doc.text " WHEN " ++ arm.1.value ++ Doc.text " THEN " ++ arm.2.value) ++
    Doc.ofOption otherwise (fun e => Doc.text " ELSE " ++ e.value) ++ Doc.text " END"

/-- A looser operand is in parentheses; one of equal strength is so on the left of a power, and on the
right unless it repeats the same associative operator. -/
def arithmetic (style : Style) (op : ArithmeticOp) (lhs rhs : Drawn .expr) : Doc :=
  let level := op.precedence
  let repeated := Expr.arithmeticOp? rhs.tree = some op && op.isAssociative
  Doc.when (op = .pow) (Doc.require .power) ++
    operand (fun p => p < level || (p = level && op = .pow)) lhs ++
    Doc.text (" " ++ style.arithmetic op ++ " ") ++
    operand (fun p => p < level || (p = level && !repeated)) rhs

/-- An operator expression is negated in parentheses; before any other text a second minus sign must not
follow the first. -/
def negate (operand : Drawn .expr) : Doc :=
  Doc.text "-" ++
    match Expr.binding? operand.tree with
    | some _ => Doc.parens operand.value
    | none => Doc.afterMinus operand.value

def customBinary (style : Style) (op : CustomOperator) (lhs rhs : Drawn .expr) : Doc :=
  tight lhs ++ Doc.text " " ++ style.operatorDoc op ++ Doc.text " " ++ tight rhs

def customUnary (style : Style) (op : CustomOperator) (operand : Drawn .expr) : Doc :=
  style.operatorDoc op ++ Doc.text " " ++ tight operand

def typeName (style : Style) (base : TypeBase) (dims : UInt32) (zone : TimeZoneSpec)
    (modifiers : List (Drawn .expr)) : Doc :=
  (match base with
    | .keyword word => Doc.text word
    | .named name => style.nameDoc name) ++
    Doc.when (!modifiers.isEmpty) (Doc.parens (list modifiers)) ++
    (match zone with
    | .none => Doc.empty
    | .withTimeZone => Doc.require .withTimeZone ++ Doc.text " WITH TIME ZONE"
    | .withoutTimeZone => Doc.require .withoutTimeZone ++ Doc.text " WITHOUT TIME ZONE") ++
    Doc.when (dims ≠ 0)
      (Doc.require .arrayType ++ Doc.text (Text.join "" (List.replicate dims.toNat "[]")))

def collate (style : Style) (collation : QualifiedName) (e : Drawn .expr) : Doc :=
  tight e ++ Doc.text " COLLATE " ++ style.nameDoc collation

def atTimeZone (e zone : Drawn .expr) : Doc :=
  Doc.require .atTimeZone ++ tight e ++ Doc.text " AT TIME ZONE " ++ tight zone

end Render

end SqlTree

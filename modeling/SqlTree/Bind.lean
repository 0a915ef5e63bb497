import SqlTree.Event
import SqlTree.Edit
import SqlTree.Tree.Node
import SqlTree.Visit

namespace SqlTree

/-- The number given last, and the literals that became parameters. -/
structure Numbering where
  last : UInt32
  log : List Event

namespace Numbering

def start : Numbering :=
  ⟨0, []⟩

/-- The parameter of the next number, carrying a value. -/
def next (value : Option Literal) : StateM Numbering Param := do
  modify fun n => { n with last := n.last + 1 }
  return Param.numbered (← get).last value

/-- Numbers the literals and anonymous parameters of expressions, in written order. NULL stays as it is, and so
do the literals of type names. -/
def editor : Editor (StateM Numbering) := fun {k} t below =>
  match k, t with
  | .expr, Expr.literal value =>
    if value.isNull then below
    else do
      let p ← next (some value)
      modify fun n => { n with log := n.log ++ [.bound value n.last] }
      return some (Expr.param p)
  | .expr, Expr.param ⟨.anonymous, value⟩ => do
    return some (Expr.param (← next value))
  | .typeName, _ => return none
  | _, _ => below

end Numbering

namespace Param

/-- A parameter that nothing can be bound to. -/
def valueless? : Param → Option Valueless
  | ⟨.ordinal index, none⟩ => some (.ordinal index)
  | ⟨.anonymous, none⟩ => some .anonymous
  | _ => none

end Param

/-- Visits parameters; each gives a result, and the results are joined in written order. -/
def Visitor.params {ρ : Type} (unit : ρ) (combine : ρ → ρ → ρ) (each : Param → ρ) : Visitor Id ρ where
  unit := unit
  combine := combine
  enter := fun {k} t below =>
    match k, t with
    | .param, .param p => each p
    | _, _ => below

namespace Tree

/-- The parameters of a tree in written order. -/
def params {k : Kind} (t : Tree k) : List Param :=
  t.visit (Visitor.params [] (· ++ ·) fun p => [p]) |>.run

/-- The names that the caller gave to parameters. -/
def callerNames {k : Kind} (t : Tree k) : List String :=
  t.params.filterMap Param.name?

/-- The first parameter that nothing can be bound to. -/
def firstValueless? {k : Kind} (t : Tree k) : Option Valueless :=
  t.visit (Visitor.params none Option.or Param.valueless?) |>.run

end Tree

/-- A tree made ready for binding: the new tree, or none when the tree was ready as it is, with the
literals that became parameters. -/
structure Prepared (k : Kind) where
  tree? : Option (Tree k)
  log : List Event

namespace Tree

/-- Numbers the literals and anonymous parameters of a tree. -/
def number {k : Kind} (t : Tree k) : Prepared k :=
  let (tree?, n) := (t.edit Numbering.editor).run Numbering.start
  ⟨tree?, n.log⟩

/-- The prepared tree, or the error for the first parameter that nothing can be bound to. -/
def prepare {k : Kind} (t : Tree k) : Except Error (Option (Tree k)) :=
  let tree? := t.number.tree?
  match (tree?.getD t).firstValueless? with
  | some p => .error (.unresolved p)
  | none => .ok tree?

end Tree

end SqlTree

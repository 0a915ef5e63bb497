import SqlTree.Literal

namespace SqlTree

inductive ParamKind where
  | anonymous
  | named (name : String)
  | ordinal (index : UInt32)
  deriving DecidableEq, Repr

/-- How the parameter is written in text of its own: `?`, `:name` or `$n`. -/
def ParamKind.text : ParamKind → String
  | .anonymous => "?"
  | .named name => ":" ++ name
  | .ordinal index => "$" ++ toString index.toNat

/-- A query parameter, with or without the value to bind. -/
structure Param where
  kind : ParamKind
  value : Option Literal
  deriving BEq, Repr

namespace Param

def anonymous : Param :=
  ⟨.anonymous, none⟩

/-- A named parameter; names are bare words. -/
def named (name : String) : Checked Param :=
  if Text.isWord name then .ok ⟨.named name, none⟩ else .error (.parameterName name)

/-- A numbered parameter; numbers start at one. -/
def ordinal (index : UInt32) : Checked Param :=
  if index = 0 then .error .ordinalZero else .ok ⟨.ordinal index, none⟩

/-- Whether name or number is one that a parameter may have. -/
def check (p : Param) : Checked Unit :=
  match p.kind with
  | .anonymous => .ok ()
  | .named name => if Text.isWord name then .ok () else .error (.parameterName name)
  | .ordinal index => if index = 0 then .error .ordinalZero else .ok ()

def withValue (p : Param) (value : Literal) : Param :=
  { p with value := some value }

/-- The parameter of a given number, or the first one when the number is zero. -/
def numbered (index : UInt32) (value : Option Literal) : Param :=
  ⟨.ordinal (max index 1), value⟩

def name? (p : Param) : Option String :=
  match p.kind with
  | .named name => some name
  | _ => none

def index? (p : Param) : Option UInt32 :=
  match p.kind with
  | .ordinal index => some index
  | _ => none

end Param

end SqlTree

import SqlTree.Numeric.Binary

namespace SqlTree

/-- A JSON value. Whole numbers that fit 64 bits are kept as such, any other number is a double with its sign. An
object keeps its fields in the order they were written. -/
inductive Json where
  | null
  | bool (b : Bool)
  | integer (n : Int)
  | real (negative : Bool) (magnitude : Numeric.Magnitude)
  | string (s : String)
  | array (items : List Json)
  | object (fields : List (String × Json))
  deriving Repr, Inhabited

namespace Json

/-- The value of the first field of a given name. -/
def field? (name : String) : List (String × Json) → Option Json
  | [] => none
  | (key, value) :: rest => if key = name then some value else field? name rest

/-- The field of an object; nothing for a value that is no object. -/
def get? (name : String) : Json → Option Json
  | .object fields => field? name fields
  | _ => none

def isNull : Json → Bool
  | .null => true
  | _ => false

mutual

/-- How deep the arrays and objects of a value are nested in one another. -/
def depth : Json → Nat
  | .array items => itemsDepth items + 1
  | .object fields => fieldsDepth fields + 1
  | _ => 0

def itemsDepth : List Json → Nat
  | [] => 0
  | item :: rest => max item.depth (itemsDepth rest)

def fieldsDepth : List (String × Json) → Nat
  | [] => 0
  | field :: rest => max field.2.depth (fieldsDepth rest)

end

end Json

end SqlTree

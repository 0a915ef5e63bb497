namespace SqlTree

/-- A finite vocabulary: the members of a type and a name for each. -/
class Enumerated (α : Type) where
  members : List α
  tag : α → String

namespace Enumerated

/-- The member of a given name. -/
def ofTag? {α : Type} [Enumerated α] (name : String) : Option α :=
  (members : List α).find? fun a => tag a == name

end Enumerated

end SqlTree

import SqlTree.Param
import SqlTree.Writer

namespace SqlTree

/-- What a tree is to be written as, before it is known which constructs the dialect has, whether values are
bound, and whether the layout is pretty. -/
inductive Doc where
  | empty
  | text (s : String)
  /-- The break between two clauses. -/
  | gap
  | append (first second : Doc)
  /-- A parenthesised block that has lines of its own in a pretty layout. -/
  | block (body : Doc)
  /-- Stops unless the dialect has the construct. -/
  | require (construct : Construct)
  | fail (error : Error)
  | note (event : Event)
  /-- A parameter: a placeholder when values are bound, the document of its value or of its own notation
  when they are not. -/
  | param (param : Param) (inline : Doc)
  /-- What follows a minus sign: in parentheses when it begins with another minus sign. -/
  | afterMinus (body : Doc)

namespace Doc

instance : Append Doc := ⟨append⟩

instance : Coe String Doc := ⟨text⟩

def parens (body : Doc) : Doc :=
  text "(" ++ body ++ text ")"

/-- A document when a condition holds, nothing otherwise. -/
def when (condition : Bool) (body : Doc) : Doc :=
  if condition then body else empty

/-- The document of something that may be missing. -/
def ofOption {α : Type} (value : Option α) (body : α → Doc) : Doc :=
  match value with
  | some a => body a
  | none => empty

def concat (docs : List Doc) : Doc :=
  docs.foldr append empty

/-- Documents with a separator between neighbours. -/
def separated (separator : Doc) : List Doc → Doc
  | [] => empty
  | [d] => d
  | d :: rest => d ++ separator ++ separated separator rest

def commas (docs : List Doc) : Doc :=
  separated (text ", ") docs

/-- A clause: a break, then the keyword. -/
def clause (keyword : String) : Doc :=
  gap ++ text keyword

end Doc

end SqlTree

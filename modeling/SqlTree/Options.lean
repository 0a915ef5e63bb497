import SqlTree.Enumerated

namespace SqlTree

/-- How values reach the database: in the text, or beside it as bound parameters. -/
inductive Mode where
  | inline
  | bind
  deriving DecidableEq, Repr

namespace Mode

instance : Enumerated Mode where
  members := [.inline, .bind]
  tag
    | .inline => "inline"
    | .bind => "bind"

/-- The name of a mode in messages. -/
def label : Mode → String
  | .inline => "Inline"
  | .bind => "Bind"

end Mode

/-- The notation of bound parameters: `?`, `$1` or `:name`. -/
inductive Placeholder where
  | positional
  | ordinal
  | named
  deriving DecidableEq, Repr

namespace Placeholder

instance : Enumerated Placeholder where
  members := [.positional, .ordinal, .named]
  tag
    | .positional => "positional"
    | .ordinal => "ordinal"
    | .named => "named"

def label : Placeholder → String
  | .positional => "Positional"
  | .ordinal => "Ordinal"
  | .named => "Named"

end Placeholder

structure RenderOptions where
  mode : Mode
  placeholder : Placeholder
  pretty : Bool
  deriving DecidableEq, Repr

namespace RenderOptions

/-- Values in the text, on one line. -/
def inline : RenderOptions :=
  ⟨.inline, .positional, false⟩

/-- Values beside the text, in a given notation. -/
def bind (placeholder : Placeholder) : RenderOptions :=
  ⟨.bind, placeholder, false⟩

end RenderOptions

end SqlTree

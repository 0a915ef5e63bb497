import SqlTree.Error
import SqlTree.Text.Blank

namespace SqlTree

/-- The quotes an identifier was recorded with. Any but `none` asks for quotes when it is written. -/
inductive QuoteStyle where
  | none
  | doubleQuote
  | backtick
  | brackets
  deriving DecidableEq, Repr

instance : Enumerated QuoteStyle where
  members := [.none, .doubleQuote, .backtick, .brackets]
  tag
    | .none => "None"
    | .doubleQuote => "DoubleQuote"
    | .backtick => "Backtick"
    | .brackets => "Brackets"

structure Identifier where
  value : String
  style : QuoteStyle
  deriving DecidableEq, Repr

namespace Identifier

/-- An identifier is not blank. -/
def check (i : Identifier) : Checked Unit :=
  if Text.isBlank i.value then .error .blankIdentifier else .ok ()

/-- An identifier with a given quote style; blank text is refused. -/
def styled (value : String) (style : QuoteStyle) : Checked Identifier :=
  if Text.isBlank value then .error .blankIdentifier else .ok ⟨value, style⟩

/-- An identifier recorded without quotes; blank text is refused. -/
def make (value : String) : Checked Identifier :=
  styled value .none

end Identifier

/-- A dotted name such as `schema.table`. -/
structure QualifiedName where
  parts : List Identifier
  deriving DecidableEq, Repr

namespace QualifiedName

/-- A name of at least one part. -/
def make (parts : List Identifier) : Checked QualifiedName :=
  if parts.isEmpty then .error .emptyName else .ok ⟨parts⟩

/-- Splits dotted text into unquoted parts. -/
def ofDotted (text : String) : Checked QualifiedName := do
  make (← (Text.splitAt '.' text.toList).mapM fun piece => Identifier.make (String.ofList piece))

/-- The part that nothing follows. -/
def last? (n : QualifiedName) : Option Identifier :=
  n.parts.getLast?

/-- The parts with dots between them, as they are and without quotes. -/
def text (n : QualifiedName) : String :=
  Text.join "." (n.parts.map (·.value))

end QualifiedName

end SqlTree

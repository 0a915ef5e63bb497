import SqlTree.Doc
import SqlTree.Form
import SqlTree.Quoter

namespace SqlTree

inductive BooleanStyle where
  | keywords
  | numeric
  deriving DecidableEq, Repr

namespace BooleanStyle

instance : Enumerated BooleanStyle where
  members := [.keywords, .numeric]
  tag
    | .keywords => "Keywords"
    | .numeric => "Numeric"

def text : BooleanStyle → Bool → String
  | .keywords, true => "TRUE"
  | .keywords, false => "FALSE"
  | .numeric, true => "1"
  | .numeric, false => "0"

end BooleanStyle

/-- How a row window is written. -/
inductive PaginationStyle where
  /-- `LIMIT n OFFSET m` -/
  | limitOffset
  /-- `OFFSET m ROWS FETCH NEXT n ROWS ONLY` -/
  | offsetFetch
  /-- `SELECT TOP n`, which has no offset -/
  | top
  deriving DecidableEq, Repr

instance : Enumerated PaginationStyle where
  members := [.limitOffset, .offsetFetch, .top]
  tag
    | .limitOffset => "LimitOffset"
    | .offsetFetch => "OffsetFetch"
    | .top => "Top"

/-- Where nulls are sorted by default in each direction, and whether a query can say otherwise. -/
structure NullSorting where
  explicit : Bool
  ascDefault : Nulls
  descDefault : Nulls
  deriving DecidableEq, Repr

namespace NullSorting

def standard : NullSorting :=
  ⟨true, .last, .first⟩

def defaultFor (sorting : NullSorting) : Direction → Nulls
  | .asc => sorting.ascDefault
  | .desc => sorting.descDefault

/-- The placement that has to be brought about by a sort key of its own: one that cannot be written and
is not the default. A missing direction is ascending. -/
def emulated (sorting : NullSorting) (direction : Option Direction) (nulls : Option Nulls) : Option Nulls :=
  nulls.filter fun n => !sorting.explicit && n ≠ sorting.defaultFor (direction.getD .asc)

end NullSorting

/-- All of a dialect that shapes the text. -/
structure Style where
  name : String
  quoter : Quoter
  booleans : BooleanStyle
  nulls : NullSorting
  pagination : PaginationStyle
  comparison : ComparisonOp → String
  arithmetic : ArithmeticOp → String
  /-- Replaces the standard document of a node of the given form. -/
  renderer : {k : Kind} → Form k → Doc → Doc

namespace Style

def standard : Style where
  name := "ANSI"
  quoter := .standard
  booleans := .keywords
  nulls := .standard
  pagination := .offsetFetch
  comparison := ComparisonOp.symbol
  arithmetic := ArithmeticOp.symbol
  renderer := fun _ doc => doc

/-- The standard document of a node of the given kind is written between two texts. -/
def surround (style : Style) (kind : Kind) (before after : String) : Style :=
  { style with
    renderer := fun {k} form doc =>
      if k = kind then Doc.text before ++ doc ++ Doc.text after else style.renderer form doc }

/-- Literals are written by a rule of their own, which is given the standard document. -/
def respell (style : Style) (rule : Literal → Doc → Doc) : Style :=
  { style with
    renderer := fun form doc =>
      match form with
      | .literal value => rule value doc
      | form => style.renderer form doc }

end Style

/-- A style with the features that the dialect has. -/
structure Dialect extends Style where
  capabilities : Capabilities

def Dialect.standard : Dialect :=
  { Style.standard with capabilities := .standard }

end SqlTree

import SqlTree.Name
import SqlTree.Text.Quoted

namespace SqlTree

/-- Words that cannot stand as bare identifiers. -/
def reservedWords : List String :=
  ["all", "alter", "and", "any", "array", "as", "asc", "between", "both", "by", "case", "cast",
    "check", "collate", "column", "constraint", "create", "cross", "current_date", "current_time",
    "current_timestamp", "current_user", "default", "delete", "desc", "distinct", "drop", "else",
    "end", "except", "exists", "false", "fetch", "for", "foreign", "from", "full", "group", "having",
    "in", "index", "inner", "insert", "intersect", "into", "is", "join", "key", "lateral", "leading",
    "left", "like", "limit", "natural", "not", "null", "offset", "on", "only", "or", "order", "outer",
    "over", "partition", "primary", "references", "right", "select", "some", "table", "then", "to",
    "trailing", "true", "union", "unique", "update", "user", "using", "values", "when", "where",
    "window", "with"]

/-- A word is quoted when it is reserved in any letter case, when it holds a character other than ASCII
letters, digits and underscores, or when it begins with a digit. -/
def needsQuoting (value : String) : Bool :=
  reservedWords.contains (Text.lower value) || !value.toList.all Text.isWordChar ||
    match value.toList with
    | c :: _ => c.isDigit
    | [] => false

/-- A dialect's own delimiters. They are used whatever quotes an identifier was recorded with; the recorded style
only says whether to quote. -/
structure Quoter where
  opening : Char
  closing : Char
  deriving DecidableEq, Repr

namespace Quoter

/-- Double quotes. -/
def standard : Quoter :=
  ⟨'\x22', '\x22'⟩

/-- Quotes in any case; the closing delimiter is doubled inside. -/
def quote (q : Quoter) (value : String) : String :=
  Text.quoted q.opening q.closing value

def quoteIfNeeded (q : Quoter) (i : Identifier) : String :=
  if i.style ≠ .none || needsQuoting i.value then q.quote i.value else i.value

/-- The parts with dots between them, each quoted as needed. -/
def qualify (q : Quoter) (parts : List Identifier) : String :=
  Text.join "." (parts.map q.quoteIfNeeded)

end Quoter

end SqlTree

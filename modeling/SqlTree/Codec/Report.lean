import SqlTree.Codec.Value
import SqlTree.Render

namespace SqlTree

/-- The fields of an error: its class, its message, and what a missing feature concerns. -/
def Error.fields (e : Error) : List (String × Json) :=
  let worded (name : String) : List (String × Json) :=
    [("error", .string name), ("message", .string e.message)]
  match e with
  | .invalid _ => worded "InvalidArgument"
  | .unsupported construct dialect =>
    worded "UnsupportedFeature" ++
      [("feature", encode construct.feature), ("construct", .string construct.label),
        ("dialect", .string dialect)]
  | .unresolved _ | .unbound _ => worded "UnresolvedParameter"
  | .offsetWithTop _ | .limitWithTop _ => worded "UnsupportedOperation"
  | .config => [("error", .string "Config")]

def Event.toJson (e : Event) : Json :=
  .array [.string e.level, .string e.message]

/-- The fields of an outcome: text, names and values, or the error. -/
def Report.fields (r : Report) : List (String × Json) :=
  match r.result with
  | .ok t =>
    [("sql", .string t.sql), ("names", encode (t.params.map (·.name))),
      ("values", encode (t.params.map (·.value)))]
  | .error e => e.fields

/-- A text, or the error that stands for it. -/
def Error.orText : Except Error String → Json
  | .ok s => .string s
  | .error e => .object e.fields

/-- The fields that describe the dialect of a context. -/
def Context.fields (ctx : Context) : List (String × Json) :=
  let d := ctx.dialect
  [("name", .string d.name), ("supports", encode (d.capabilities.toList.map Feature.name)),
    ("comparison", encode ((Enumerated.members : List ComparisonOp).map d.comparison)),
    ("arithmetic", encode ((Enumerated.members : List ArithmeticOp).map d.arithmetic)),
    ("booleans", encode [d.booleans.text true, d.booleans.text false]),
    ("pagination", encode d.pagination), ("quoter", encode d.quoter),
    ("nulls", .object
      [("explicit", .bool d.nulls.explicit), ("asc", encode d.nulls.ascDefault),
        ("desc", encode d.nulls.descDefault), ("first", .string Nulls.first.keyword),
        ("last", .string Nulls.last.keyword)]),
    ("context", .string ctx.shown)]

end SqlTree

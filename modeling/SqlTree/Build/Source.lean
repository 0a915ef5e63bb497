import SqlTree.Build.Call

namespace SqlTree

namespace NamedTable

/-- A table by its name, or by schema and name with a dot between them. -/
def ofDotted (text : String) : Checked NamedTable := do
  match (← QualifiedName.ofDotted text).parts with
  | [name] => return .ofName name
  | [schema, name] => return { ofName name with schema := some schema }
  | _ => .error (.tableParts text)

end NamedTable

namespace TableRef

def ofTable (t : NamedTable) : TableRef :=
  .of .named (.namedTable t)

/-- The named table that a reference is. -/
def table? : TableRef → Option NamedTable
  | .of .named (.namedTable t) => some t
  | _ => none

def ofQuery (q : Query) (correlation : Option TableAlias) : TableRef :=
  .of .subquery (.node (.subqueryTable correlation) (.one q .nil))

def ofValues (rows : Tree .rowList) (correlation : Option TableAlias) : TableRef :=
  .of .values (.node (.valuesTable correlation) (.one rows .nil))

def ofCall (c : Call) (correlation : Option TableAlias) : TableRef :=
  .of .function (.node (.functionTable correlation) (.one c.toTree .nil))

def lateral (t : TableRef) : TableRef :=
  .of .lateral (.node .lateralTable (.one t .nil))

end TableRef

namespace Join

def cross (t : TableRef) : Join :=
  .of .cross (.node .crossJoin (.one t .nil))

def natural (t : TableRef) : Join :=
  .of .natural (.node .naturalJoin (.one t .nil))

def on (kind : JoinKind) (t : TableRef) (condition : Predicate) : Join :=
  .of .on (.node (.onJoin kind) (.one t (.one condition .nil)))

/-- A join over equal columns, of which there must be one. -/
def usingColumns (kind : JoinKind) (t : TableRef) (columns : List Identifier) : Checked Join := do
  return .of .using (← Tree.make (.usingJoin kind columns) (t, ()))

end Join

end SqlTree

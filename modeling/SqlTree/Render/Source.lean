import SqlTree.Render.Expression

namespace SqlTree.Render

def tableAlias (style : Style) (correlation : Option TableAlias) : Doc :=
  Doc.ofOption correlation fun a =>
    Doc.text " AS " ++ style.identDoc a.name ++
      Doc.when (!a.columns.isEmpty) (Doc.text " " ++ Doc.parens (style.identsDoc a.columns))

def namedTable (style : Style) (t : NamedTable) : Doc :=
  Doc.when (t.inheritance = .only) (Doc.require .only ++ Doc.text "ONLY ") ++
    Doc.ofOption t.schema (fun s => style.identDoc s ++ Doc.text ".") ++ style.identDoc t.name ++
    Doc.when (t.inheritance = .withDescendants) (Doc.require .descendants ++ Doc.text " *") ++
    tableAlias style t.correlation

def usingJoin (style : Style) (kind : JoinKind) (columns : List Identifier) (table : Drawn .tableRef) : Doc :=
  Doc.text (kind.keyword ++ " ") ++ table.value ++ Doc.text " USING " ++
    Doc.parens (style.identsDoc columns)

def onJoin (kind : JoinKind) (table : Drawn .tableRef) (on : Drawn .predicate) : Doc :=
  Doc.text (kind.keyword ++ " ") ++ table.value ++ Doc.text " ON " ++ on.value

end SqlTree.Render

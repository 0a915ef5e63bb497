import SqlTree.Render.Expression
import SqlTree.Tree.Select

namespace SqlTree

/-- A query that stands bare as a term of a set operation: a SELECT without order, row window and lock. -/
def Query.isPlain : Query → Bool
  | .of .select s =>
    let parts := Select.parts s
    parts.orderBy.isNone && parts.locking.isNone &&
      match parts.limitOffset with
      | some w => w.window.isEmpty
      | none => true
  | _ => false

namespace Render

def number (n : UInt64) : String :=
  toString n.toNat

/-- The row window after the clauses of a query. With TOP it stands in the head of the query instead. -/
def pagination (style : Style) (window : Option LimitOffset) (ordered : Bool) : Doc :=
  match window with
  | none => Doc.empty
  | some w =>
    if w.isEmpty then Doc.empty
    else match style.pagination with
      | .limitOffset =>
        Doc.ofOption w.limit (fun n => Doc.clause ("LIMIT " ++ number n)) ++
          Doc.ofOption w.offset (fun n => Doc.clause ("OFFSET " ++ number n))
      | .offsetFetch =>
        Doc.when (!ordered) (Doc.note (.unordered style.name)) ++
          Doc.clause ("OFFSET " ++ number (w.offset.getD 0) ++ " ROWS") ++
          Doc.ofOption w.limit (fun n => Doc.clause ("FETCH NEXT " ++ number n ++ " ROWS ONLY"))
      | .top => Doc.empty

/-- The row window in the head of a SELECT. -/
def top (style : Style) (window : Option LimitOffset) : Doc :=
  match style.pagination, window with
  | .top, some w =>
    if w.offset.isSome then Doc.fail (.offsetWithTop style.name)
    else Doc.ofOption w.limit fun n => Doc.text (" TOP " ++ number n)
  | _, _ => Doc.empty

def select (style : Style) (s : SelectParts Drawn) : Doc :=
  let window := s.limitOffset.map (·.tree.window)
  Doc.text "SELECT" ++ Doc.ofOption s.distinct (fun d => Doc.text " " ++ d.value) ++ top style window ++
    Doc.when s.items.isEmpty (Doc.fail (.invalid .emptySelect)) ++
    Doc.text " " ++ list s.items ++
    Doc.ofOption s.source (fun t => Doc.clause "FROM " ++ t.value) ++
    Doc.concat (s.joins.map fun j => Doc.gap ++ j.value) ++
    Doc.ofOption s.filter (fun p => Doc.clause "WHERE " ++ p.value) ++
    Doc.ofOption s.groupBy (fun g => Doc.gap ++ g.value) ++
    Doc.ofOption s.having (fun p => Doc.clause "HAVING " ++ p.value) ++
    Doc.when (!s.windows.isEmpty) (Doc.clause "WINDOW " ++ list s.windows) ++
    Doc.ofOption s.orderBy (fun o => Doc.gap ++ o.value) ++
    pagination style window s.orderBy.isSome ++
    Doc.ofOption s.locking (fun l => Doc.gap ++ l.value)

/-- A term of a set operation; all but plain queries are in a block of their own. -/
def term (q : Drawn .query) : Doc :=
  if Query.isPlain q.tree then q.value else Doc.block q.value

/-- Each operator stands before the term on its right. -/
def terms : List SetOperator → List (Drawn .query) → Doc
  | op :: ops, q :: rest =>
    Doc.clause op.keyword ++ Doc.text " " ++ term q ++ terms ops rest
  | _, _ => Doc.empty

/-- What a row window at the end of a set operation asks of a dialect that writes TOP. -/
def compositeTop (style : Style) (window : Option LimitOffset) : Doc :=
  match style.pagination, window with
  | .top, some w =>
    if w.offset.isSome then Doc.fail (.offsetWithTop style.name)
    else if w.limit.isSome then Doc.fail (.limitWithTop style.name)
    else Doc.empty
  | _, _ => Doc.empty

def composite (style : Style) (ops : List SetOperator) (queries : List (Drawn .query))
    (orderBy : Option (Drawn .orderBy)) (limitOffset : Option (Drawn .limitOffset)) : Doc :=
  let window := limitOffset.map (·.tree.window)
  compositeTop style window ++
    (match queries with
    | [] => Doc.fail (.invalid .noTerms)
    | first :: rest => term first ++ terms ops rest) ++
    Doc.ofOption orderBy (fun o => Doc.gap ++ o.value) ++
    pagination style window orderBy.isSome

def withQuery (recursive : Bool) (ctes : List (Drawn .cte)) (body : Drawn .query) : Doc :=
  Doc.text (if recursive then "WITH RECURSIVE " else "WITH ") ++ list ctes ++ Doc.gap ++ body.value

def materialization : Materialization → Doc
  | .default => Doc.empty
  | .materialized => Doc.require .materialized ++ Doc.text "MATERIALIZED "
  | .notMaterialized => Doc.require .notMaterialized ++ Doc.text "NOT MATERIALIZED "

/-- A common table expression can be built without a body, but not written. -/
def cte (style : Style) (name : Identifier) (columns : List Identifier) (m : Materialization)
    (body : Option (Drawn .query)) : Doc :=
  match body with
  | none => Doc.fail (.invalid (.noBody name.value))
  | some q =>
    style.identDoc name ++ Doc.when (!columns.isEmpty) (Doc.parens (style.identsDoc columns)) ++
      Doc.text " AS " ++ materialization m ++ Doc.block q.value

/-- The leading key that sorts nulls where the dialect cannot be told to. -/
def nullsKey (nulls : Nulls) (e : Drawn .expr) : Doc :=
  Doc.text "CASE WHEN " ++ e.value ++
    Doc.text (match nulls with
      | .first => " IS NULL THEN 0 ELSE 1 END, "
      | .last => " IS NULL THEN 1 ELSE 0 END, ")

def direction : Direction → Doc
  | .asc => Doc.text " ASC"
  | .desc => Doc.text " DESC"

def orderItem (style : Style) (dir : Option Direction) (nulls : Option Nulls) (e : Drawn .expr) : Doc :=
  Doc.ofOption (style.nulls.emulated dir nulls) (fun n => nullsKey n e) ++ e.value ++
    Doc.ofOption dir direction ++
    Doc.when style.nulls.explicit (Doc.ofOption nulls fun n => Doc.text (" " ++ n.keyword))

def lockMode : LockMode → Doc
  | .update => Doc.text "FOR UPDATE"
  | .share => Doc.require .forShare ++ Doc.text "FOR SHARE"
  | .noKeyUpdate => Doc.require .forNoKeyUpdate ++ Doc.text "FOR NO KEY UPDATE"
  | .keyShare => Doc.require .forKeyShare ++ Doc.text "FOR KEY SHARE"

def locking (style : Style) (l : Locking) : Doc :=
  lockMode l.mode ++
    Doc.when (!l.tables.isEmpty) (Doc.text " OF " ++ Doc.commas (l.tables.map style.nameDoc)) ++
    Doc.when l.nowait (Doc.require .nowait ++ Doc.text " NOWAIT") ++
    Doc.when l.skipLocked (Doc.require .skipLocked ++ Doc.text " SKIP LOCKED")

end Render

end SqlTree

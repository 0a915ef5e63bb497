import SqlTree.Name

namespace SqlTree

inductive Direction where
  | asc
  | desc
  deriving DecidableEq, Repr

instance : Enumerated Direction where
  members := [.asc, .desc]
  tag
    | .asc => "Asc"
    | .desc => "Desc"

/-- Where nulls stand in sorted rows. -/
inductive Nulls where
  | first
  | last
  deriving DecidableEq, Repr

namespace Nulls

instance : Enumerated Nulls where
  members := [.first, .last]
  tag
    | .first => "First"
    | .last => "Last"

def keyword : Nulls → String
  | .first => "NULLS FIRST"
  | .last => "NULLS LAST"

end Nulls

/-- The rows asked for: how many, and how many to pass over before them. -/
structure LimitOffset where
  limit : Option UInt64
  offset : Option UInt64
  deriving DecidableEq, Repr

def LimitOffset.isEmpty (w : LimitOffset) : Bool :=
  w.limit.isNone && w.offset.isNone

inductive SetOperator where
  | union
  | unionAll
  | intersect
  | intersectAll
  | except
  | exceptAll
  deriving DecidableEq, Repr

namespace SetOperator

instance : Enumerated SetOperator where
  members := [.union, .unionAll, .intersect, .intersectAll, .except, .exceptAll]
  tag
    | .union => "Union"
    | .unionAll => "UnionAll"
    | .intersect => "Intersect"
    | .intersectAll => "IntersectAll"
    | .except => "Except"
    | .exceptAll => "ExceptAll"

def keyword : SetOperator → String
  | .union => "UNION"
  | .unionAll => "UNION ALL"
  | .intersect => "INTERSECT"
  | .intersectAll => "INTERSECT ALL"
  | .except => "EXCEPT"
  | .exceptAll => "EXCEPT ALL"

end SetOperator

inductive Materialization where
  | default
  | materialized
  | notMaterialized
  deriving DecidableEq, Repr

instance : Enumerated Materialization where
  members := [.default, .materialized, .notMaterialized]
  tag
    | .default => "Default"
    | .materialized => "Materialized"
    | .notMaterialized => "NotMaterialized"

inductive LockMode where
  | update
  | share
  | noKeyUpdate
  | keyShare
  deriving DecidableEq, Repr

instance : Enumerated LockMode where
  members := [.update, .share, .noKeyUpdate, .keyShare]
  tag
    | .update => "Update"
    | .share => "Share"
    | .noKeyUpdate => "NoKeyUpdate"
    | .keyShare => "KeyShare"

/-- `FOR UPDATE OF tables NOWAIT` and its relatives. -/
structure Locking where
  mode : LockMode
  tables : List QualifiedName
  nowait : Bool
  skipLocked : Bool
  deriving DecidableEq, Repr

namespace Locking

/-- Rows that are locked cannot both be refused at once and passed over. -/
def check (l : Locking) : Checked Unit :=
  if l.nowait && l.skipLocked then .error .lockConflict else .ok ()

def make (mode : LockMode) (tables : List QualifiedName) (nowait skipLocked : Bool) : Checked Locking := do
  let l : Locking := ⟨mode, tables, nowait, skipLocked⟩
  l.check
  return l

def forUpdate : Locking :=
  ⟨.update, [], false, false⟩

end Locking

end SqlTree

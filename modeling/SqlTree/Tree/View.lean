import SqlTree.Tree.Node

namespace SqlTree

/-- The table that is joined. -/
def Join.table : Join → TableRef
  | .of .cross (.node .crossJoin (.one t .nil)) => t
  | .of .natural (.node .naturalJoin (.one t .nil)) => t
  | .of .using (.node (.usingJoin _kind _columns) (.one t .nil)) => t
  | .of .on (.node (.onJoin _kind) (.one t _)) => t

namespace ValueSet

def query? : ValueSet → Option Query
  | .of .query q => some q
  | _ => none

def row? : ValueSet → Option (Tree .row)
  | .of .row r => some r
  | _ => none

def rowList? : ValueSet → Option (Tree .rowList)
  | .of .rowList rows => some rows
  | _ => none

end ValueSet

namespace Bound

/-- The expression of a bound that is so many rows away. -/
def offset? : Bound → Option Expr
  | .node (.boundOffset _side) (.one e .nil) => some e
  | .node (.boundAt _) _ => none

def isUnbounded : Bound → Bool
  | .node (.boundAt .unboundedPreceding) _ | .node (.boundAt .unboundedFollowing) _ => true
  | _ => false

end Bound

namespace Frame

def unit : Frame → FrameUnit
  | .node (.frameFrom unit) _ => unit
  | .node (.frameBetween unit) _ => unit

def start : Frame → Bound
  | .node (.frameFrom _unit) (.one b .nil) => b
  | .node (.frameBetween _unit) (.one b _) => b

/-- The last bound of a frame that has two. -/
def stop? : Frame → Option Bound
  | .node (.frameFrom _) _ => none
  | .node (.frameBetween _unit) (.one _ (.one b .nil)) => some b

def isBetween (frame : Frame) : Bool :=
  (stop? frame).isSome

end Frame

end SqlTree

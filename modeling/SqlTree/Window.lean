import SqlTree.Enumerated

namespace SqlTree

inductive FrameUnit where
  | rows
  | range
  | groups
  deriving DecidableEq, Repr

instance : Enumerated FrameUnit where
  members := [.rows, .range, .groups]
  tag
    | .rows => "Rows"
    | .range => "Range"
    | .groups => "Groups"

inductive FrameExclusion where
  | currentRow
  | group
  | ties
  | noOthers
  deriving DecidableEq, Repr

namespace FrameExclusion

instance : Enumerated FrameExclusion where
  members := [.currentRow, .group, .ties, .noOthers]
  tag
    | .currentRow => "CurrentRow"
    | .group => "Group"
    | .ties => "Ties"
    | .noOthers => "NoOthers"

def keyword : FrameExclusion → String
  | .currentRow => "EXCLUDE CURRENT ROW"
  | .group => "EXCLUDE GROUP"
  | .ties => "EXCLUDE TIES"
  | .noOthers => "EXCLUDE NO OTHERS"

end FrameExclusion

/-- An end of a frame that needs no offset. -/
inductive FrameEdge where
  | unboundedPreceding
  | currentRow
  | unboundedFollowing
  deriving DecidableEq, Repr

namespace FrameEdge

instance : Enumerated FrameEdge where
  members := [.unboundedPreceding, .currentRow, .unboundedFollowing]
  tag
    | .unboundedPreceding => "UnboundedPreceding"
    | .currentRow => "CurrentRow"
    | .unboundedFollowing => "UnboundedFollowing"

def keyword : FrameEdge → String
  | .unboundedPreceding => "UNBOUNDED PRECEDING"
  | .currentRow => "CURRENT ROW"
  | .unboundedFollowing => "UNBOUNDED FOLLOWING"

end FrameEdge

/-- The side of the current row on which an offset counts. -/
inductive FrameSide where
  | preceding
  | following
  deriving DecidableEq, Repr

namespace FrameSide

instance : Enumerated FrameSide where
  members := [.preceding, .following]
  tag
    | .preceding => "Preceding"
    | .following => "Following"

def keyword : FrameSide → String
  | .preceding => "PRECEDING"
  | .following => "FOLLOWING"

end FrameSide

end SqlTree

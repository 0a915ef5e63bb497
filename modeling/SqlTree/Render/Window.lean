import SqlTree.Render.Expression

namespace SqlTree.Render

/-- The clauses of a window with spaces between them. -/
def windowSpec (exclude : Option FrameExclusion) (partitionBy : Option (Drawn .partitionBy))
    (orderBy : Option (Drawn .orderBy)) (frame : Option (Drawn .frame)) : Doc :=
  let clauses := (partitionBy.map (·.value)).toList ++ (orderBy.map (·.value)).toList ++
    (frame.map (·.value)).toList
  Doc.separated (Doc.text " ") clauses ++
    Doc.ofOption exclude fun x =>
      Doc.require .exclude ++ Doc.when (!clauses.isEmpty) (Doc.text " ") ++ Doc.text x.keyword

def frameUnit : FrameUnit → Doc
  | .rows => Doc.text "ROWS "
  | .range => Doc.text "RANGE "
  | .groups => Doc.require .groupsFrame ++ Doc.text "GROUPS "

def frameBetween (unit : FrameUnit) (start stop : Drawn .bound) : Doc :=
  frameUnit unit ++ Doc.text "BETWEEN " ++ start.value ++ Doc.text " AND " ++ stop.value

end SqlTree.Render

namespace SqlTree.Text

/-- Writes one character twice wherever it stands. -/
def doubled (close : Char) : List Char → List Char
  | [] => []
  | c :: rest => if c = close then c :: c :: doubled close rest else c :: doubled close rest

/-- Text between two delimiters, in which the closing one is written twice. -/
def quoted (opening close : Char) (s : String) : String :=
  String.ofList (opening :: doubled close s.toList ++ [close])

/-- A string literal between single quotes. -/
def quoteString (s : String) : String :=
  quoted '\x27' '\x27' s

end SqlTree.Text

import SqlTree.Calendar.Date
import SqlTree.Calendar.Time

namespace SqlTree

/-- A date and a time of day, without a zone. -/
structure Timestamp where
  date : Date
  time : Time
  deriving DecidableEq, Repr

namespace Timestamp

/-- The text with a given separator between date and time. -/
def textWith (separator : String) (t : Timestamp) : String :=
  t.date.text ++ separator ++ t.time.text

/-- The interchange text, with `T` between date and time. -/
def text (t : Timestamp) : String :=
  t.textWith "T"

def ofText? (s : String) : Option Timestamp := do
  let (date, cs) ← Date.scan s.toList
  let (_, cs) ← Calendar.separator 'T' cs
  let (time, cs) ← Time.scan cs
  if Calendar.atEnd cs then some ⟨date, time⟩ else none

end Timestamp

end SqlTree

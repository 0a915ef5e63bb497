import SqlTree.Text.Blank

namespace SqlTree.Calendar

/-- What a step reads, and the text after it. -/
abbrev Scan (α : Type) := List Char → Option (α × List Char)

/-- Between one digit and `width` digits, after white space. -/
def number (width : Nat) : Scan Nat := fun cs =>
  let cs := Text.trimStart cs
  let digits := (cs.take width).takeWhile Char.isDigit
  if digits.isEmpty then none else some (Text.digitsValue digits, cs.drop digits.length)

/-- A year: four digits at most, or a sign and any number of digits. -/
def year : Scan Int := fun cs =>
  let signed (rest : List Char) : Option (Nat × List Char) :=
    let digits := rest.takeWhile Char.isDigit
    if digits.isEmpty then none else some (Text.digitsValue digits, rest.drop digits.length)
  match Text.trimStart cs with
  | '-' :: rest => (signed rest).map fun r => (-(r.1 : Int), r.2)
  | '+' :: rest => (signed rest).map fun r => ((r.1 : Int), r.2)
  | cs => (number 4 cs).map fun r => ((r.1 : Int), r.2)

/-- A separator, after white space. -/
def separator (c : Char) : Scan Unit := fun cs =>
  match Text.trimStart cs with
  | d :: rest => if c = d then some ((), rest) else none
  | [] => none

/-- Nothing but white space is left. -/
def atEnd (cs : List Char) : Bool :=
  (Text.trimStart cs).isEmpty

end SqlTree.Calendar

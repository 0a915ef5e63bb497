import SqlTree.Error
import SqlTree.Event
import SqlTree.Literal
import SqlTree.Text.Blank

namespace SqlTree

/-- A bound parameter in placeholder order. A parameter without a value is bound later, by its name. -/
structure BindParam where
  name : Option String
  value : Option Literal
  deriving BEq, Repr

/-- Written text and its parameters. -/
structure SqlText where
  sql : String
  params : List BindParam
  deriving BEq, Repr

/-- A page: the text and the parameters written so far, the book of placeholder names, and the layout in force. -/
structure Writer where
  text : String
  params : List BindParam
  /-- The named placeholders written so far, with the value that each binds. -/
  named : List (String × Option Literal)
  /-- Names that must not be generated. -/
  reserved : List String
  pretty : Bool
  depth : Nat
  log : List Event
  deriving Repr

/-- A step that writes, and may stop with an error. What was written before stays. -/
abbrev Writing (ε : Type) := ExceptT ε (StateM Writer)

namespace Writer

/-- An empty page. -/
def blank (pretty : Bool) : Writer :=
  ⟨"", [], [], [], pretty, 0, []⟩

def write (w : Writer) (s : String) : Writer :=
  { w with text := w.text ++ s }

/-- A line break with the indentation of the depth. -/
def newline (w : Writer) : Writer :=
  w.write (String.ofList ('\n' :: List.replicate (2 * w.depth) ' '))

/-- The break between two clauses: a new line when pretty, a space otherwise. -/
def separator (w : Writer) : Writer :=
  if w.pretty then w.newline else w.write " "

/-- Begins a clause with its keyword. -/
def clause (w : Writer) (keyword : String) : Writer :=
  w.separator.write keyword

/-- Records a parameter, whose position is then the number of parameters. -/
def pushParam (w : Writer) (param : BindParam) : Writer :=
  { w with params := w.params ++ [param] }

def reserve (w : Writer) (names : List String) : Writer :=
  { w with reserved := w.reserved ++ names }

def note (w : Writer) (event : Event) : Writer :=
  { w with log := w.log ++ [event] }

/-- Whether a name is reserved or written already. -/
def isTaken (w : Writer) (name : String) : Bool :=
  w.reserved.contains name || (w.named.lookup name).isSome

/-- The first of `p{n}`, `p{n+1}`, … that is not taken. As many names as there are reserved and written
ones can be taken at most, so the search is over after one more. -/
def generatedName (w : Writer) (index : Nat) : String :=
  let candidates := (List.range' index (w.reserved.length + w.named.length + 1)).map fun n =>
    "p" ++ toString n
  (candidates.find? fun name => !w.isTaken name).getD ""

/-- Records a named placeholder. A name may come again, but only with the value it had at first. -/
def bindNamed (w : Writer) (name : String) (value : Option Literal) : Checked Writer :=
  match w.named.lookup name with
  | some bound => if bound == value then .ok w else .error (.nameConflict name)
  | none => .ok { w with named := w.named ++ [(name, value)] }

/-- Inserts a character after a number of bytes. -/
def insertAt (c : Char) : Nat → List Char → List Char
  | 0, cs => c :: cs
  | n + 1, d :: cs => d :: insertAt c (n + 1 - d.utf8Size) cs
  | _ + 1, [] => [c]

/-- Puts parentheses around all that was written since the text had a given size in bytes. -/
def wrapFrom (w : Writer) (start : Nat) : Writer :=
  { w with text := String.ofList (insertAt '(' start w.text.toList ++ [')']) }

def finish (w : Writer) : SqlText :=
  ⟨w.text, w.params⟩

end Writer

namespace Writing

variable {ε α : Type}

def put (s : String) : Writing ε Unit :=
  modify (·.write s)

/-- Runs a step one level deeper; the depth is the old one again afterwards, also when the step fails. -/
def indented (body : Writing ε α) : Writing ε α :=
  ExceptT.mk fun w =>
    let (result, w) := body.run { w with depth := w.depth + 1 }
    (result, { w with depth := w.depth - 1 })

/-- `(` body `)` on one line. -/
def parenthesized (body : Writing ε α) : Writing ε α := do
  put "("
  let a ← body
  put ")"
  return a

/-- `(` body `)`; on lines of its own and indented when pretty. -/
def nested (body : Writing ε α) : Writing ε α := do
  put "("
  if (← get).pretty then
    let a ← indented do
      modify (·.newline)
      body
    modify (·.newline)
    put ")"
    return a
  else
    let a ← body
    put ")"
    return a

/-- Items with commas between them; what an item computes is handed to the next one. -/
def commaSeparated {β : Type} (each : α → β → Writing ε α) (a : α) : List β → Writing ε α
  | [] => pure a
  | [b] => each a b
  | b :: rest => do
    let a ← each a b
    put ", "
    commaSeparated each a rest

/-- Runs a step on an empty page, and appends what it wrote after a change made to it. When the step
fails, what it wrote is appended unchanged. -/
def captured (change : String → String) (body : Writing ε α) : Writing ε α :=
  ExceptT.mk fun w =>
    match body.run { w with text := "" } with
    | (.ok a, w') => (.ok a, { w' with text := w.text ++ change w'.text })
    | (.error e, w') => (.error e, { w' with text := w.text ++ w'.text })

end Writing

end SqlTree

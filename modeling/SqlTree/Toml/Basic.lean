namespace SqlTree

/-- How a table came to be, which says what may still be added to it. -/
inductive TableOrigin where
  /-- Named on the way to another table. -/
  | implied
  /-- Has a header of its own. -/
  | header
  /-- Made by a dotted key. -/
  | dotted
  /-- Written between braces; nothing can be added. -/
  | inline
  deriving DecidableEq, Repr

inductive Toml where
  | string (s : String)
  | integer (n : Int)
  | boolean (b : Bool)
  /-- A floating-point number or a date, of which only the presence counts. -/
  | scalar
  | array (items : List Toml)
  | table (origin : TableOrigin) (fields : List (String × Toml))
  /-- Tables with the header of an array, in the order of their headers. -/
  | tables (rows : List (List (String × Toml)))
  deriving Repr, Inhabited

namespace Toml

abbrev Fields := List (String × Toml)

def field? (name : String) : Fields → Option Toml
  | [] => none
  | (key, value) :: rest => if key = name then some value else field? name rest

/-- Replaces the value of a key, or adds the key at the end. -/
def setField (name : String) (value : Toml) : Fields → Fields
  | [] => [(name, value)]
  | (key, old) :: rest =>
    if key = name then (key, value) :: rest else (key, old) :: setField name value rest

/-- Applies a change to the last of some rows. -/
def onLast (change : Fields → Option Fields) : List Fields → Option (List Fields)
  | [] => none
  | [row] => do return [← change row]
  | row :: rest => do return row :: (← onLast change rest)

/-- Defines a key below a table; the tables on its way are made when they are missing. A key cannot be
defined twice. A dotted key passes through every table without a header, but `takes` says whether the
one it ends in is the current table or made by dotted keys, for no other takes it. -/
def define (value : Toml) : (takes : Bool) → (path : List String) → Fields → Option Fields
  | _, [], _ => none
  | takes, [key], fields =>
    if takes && (field? key fields).isNone then some (setField key value fields) else none
  | _, key :: path, fields =>
    match field? key fields with
    | none => do return setField key (.table .dotted (← define value true path [])) fields
    | some (.table .dotted inner) => do
      return setField key (.table .dotted (← define value true path inner)) fields
    | some (.table .implied inner) => do
      return setField key (.table .implied (← define value false path inner)) fields
    | some (.tables rows) => do
      return setField key (.tables (← onLast (define value false path) rows)) fields
    | some _ => none

/-- Opens the table of a header. It may have been named on the way to another table, but not opened
before. -/
def openTable : (path : List String) → Fields → Option Fields
  | [], fields => some fields
  | [key], fields =>
    match field? key fields with
    | none => some (setField key (.table .header []) fields)
    | some (.table .implied inner) => some (setField key (.table .header inner) fields)
    | some _ => none
  | key :: path, fields =>
    match field? key fields with
    | none => do return setField key (.table .implied (← openTable path [])) fields
    | some (.table .inline _) => none
    | some (.table origin inner) => do
      return setField key (.table origin (← openTable path inner)) fields
    | some (.tables rows) => do return setField key (.tables (← onLast (openTable path) rows)) fields
    | some _ => none

/-- Opens a new row of the array of tables of a header. -/
def openRow : (path : List String) → Fields → Option Fields
  | [], _ => none
  | [key], fields =>
    match field? key fields with
    | none => some (setField key (.tables [[]]) fields)
    | some (.tables rows) => some (setField key (.tables (rows ++ [[]])) fields)
    | some _ => none
  | key :: path, fields =>
    match field? key fields with
    | none => do return setField key (.table .implied (← openRow path [])) fields
    | some (.table .inline _) => none
    | some (.table origin inner) => do
      return setField key (.table origin (← openRow path inner)) fields
    | some (.tables rows) => do return setField key (.tables (← onLast (openRow path) rows)) fields
    | some _ => none

/-- Applies a change to the table that a path leads to. -/
def onTable (change : Fields → Option Fields) : (path : List String) → Fields → Option Fields
  | [], fields => change fields
  | key :: path, fields =>
    match field? key fields with
    | some (.table origin inner) => do
      return setField key (.table origin (← onTable change path inner)) fields
    | some (.tables rows) => do return setField key (.tables (← onLast (onTable change path) rows)) fields
    | _ => none

end Toml

end SqlTree

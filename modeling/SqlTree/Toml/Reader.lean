import SqlTree.Toml.Scalar

/-!
Reading configuration documents: one key and value, one header, or nothing on a line, and comments after
any of them. Values are nested, and keys are dotted, only so deep.
-/
namespace SqlTree.Toml

def skipBlanks (cs : List Char) : List Char :=
  cs.dropWhile fun c => c == ' ' || c == '\t'

/-- A character that may not stand in a document as it is. -/
def isControl (c : Char) : Bool :=
  (c.toNat < 0x20 && c != '\t') || c.toNat == 0x7F

/-- The rest of a line after its comment, if there is one. -/
def skipComment : List Char → Option (List Char)
  | '#' :: rest =>
    let after := rest.dropWhile fun c => !isControl c
    match after with
    | [] | '\n' :: _ | '\r' :: '\n' :: _ => some after
    | _ => none
  | cs => some cs

/-- Nothing but blanks and a comment may stand before the end of the line. -/
def endLine (cs : List Char) : Option (List Char) := do
  match ← skipComment (skipBlanks cs) with
  | [] => some []
  | '\n' :: rest => some rest
  | '\r' :: '\n' :: rest => some rest
  | _ => none

/-- The character with the code point that a number of hexadecimal digits writes. -/
def codePoint (width : Nat) : Read Char := fun cs => do
  let digits := cs.take width
  let values ← digits.mapM hexDigit?
  let n := values.foldl (fun n d => 16 * n + d) 0
  if digits.length = width ∧ (n < 0xD800 ∨ (0xDFFF < n ∧ n ≤ 0x10FFFF)) then
    some (Char.ofNat n, cs.drop width)
  else none

/-- The character after a backslash. -/
def escape : Read Char
  | 'b' :: rest => some ('\x08', rest)
  | 't' :: rest => some ('\t', rest)
  | 'n' :: rest => some ('\n', rest)
  | 'f' :: rest => some ('\x0c', rest)
  | 'r' :: rest => some ('\r', rest)
  | '\x22' :: rest => some ('\x22', rest)
  | '\\' :: rest => some ('\\', rest)
  | 'u' :: rest => codePoint 4 rest
  | 'U' :: rest => codePoint 8 rest
  | _ => none

/-- The rest of a string on one line, after its opening quote. -/
def basicRest : (fuel : Nat) → (back : List Char) → Read String
  | 0, _, _ => none
  | _, _, [] => none
  | fuel + 1, back, c :: rest =>
    if c = '\x22' then some (String.ofList back.reverse, rest)
    else if c = '\\' then do
      let (d, rest) ← escape rest
      basicRest fuel (d :: back) rest
    else if isControl c then none
    else basicRest fuel (c :: back) rest

/-- The rest of a string without escapes on one line. -/
def literalRest (back : List Char) : Read String
  | [] => none
  | c :: rest =>
    if c = '\x27' then some (String.ofList back.reverse, rest)
    else if isControl c then none
    else literalRest (c :: back) rest

/-- Drops blanks and line breaks. -/
def skipSpace : List Char → List Char
  | ' ' :: rest | '\t' :: rest | '\n' :: rest => skipSpace rest
  | '\r' :: '\n' :: rest => skipSpace rest
  | cs => cs

/-- A line break is one character, whatever it is written as. -/
def dropBreak : List Char → List Char
  | '\n' :: rest => rest
  | '\r' :: '\n' :: rest => rest
  | cs => cs

/-- The rest of a string over several lines, after its three opening quotes. Up to two more quotes may
stand before the closing ones. -/
def multiRest (quote : Char) (escapes : Bool) : (fuel : Nat) → (back : List Char) → Read String
  | 0, _, _ => none
  | fuel + 1, back, cs =>
    let quotes := (cs.takeWhile (· == quote)).length
    if 3 ≤ quotes then
      if 5 < quotes then none
      else some (String.ofList (List.replicate (quotes - 3) quote ++ back).reverse, cs.drop quotes)
    else match cs with
      | [] => none
      | c :: rest =>
        if c = '\\' ∧ escapes then
          match skipBlanks rest with
          | '\n' :: more => multiRest quote escapes fuel back (skipSpace more)
          | '\r' :: '\n' :: more => multiRest quote escapes fuel back (skipSpace more)
          | _ => do
            let (d, rest) ← escape rest
            multiRest quote escapes fuel (d :: back) rest
        else if c = '\n' then multiRest quote escapes fuel (c :: back) rest
        else if c = '\r' then
          match rest with
          | '\n' :: rest => multiRest quote escapes fuel ('\n' :: '\r' :: back) rest
          | _ => none
        else if isControl c then none
        else multiRest quote escapes fuel (c :: back) rest

def quotedString : Read String
  | '\x22' :: '\x22' :: '\x22' :: rest => multiRest '\x22' true (rest.length + 1) [] (dropBreak rest)
  | '\x27' :: '\x27' :: '\x27' :: rest => multiRest '\x27' false (rest.length + 1) [] (dropBreak rest)
  | '\x22' :: rest => basicRest (rest.length + 1) [] rest
  | '\x27' :: rest => literalRest [] rest
  | _ => none

def isBareKeyChar (c : Char) : Bool :=
  Text.isWordChar c || c == '-'

/-- A key without dots. -/
def simpleKey : Read String
  | '\x22' :: rest => basicRest (rest.length + 1) [] rest
  | '\x27' :: rest => literalRest [] rest
  | cs =>
    let word := cs.takeWhile isBareKeyChar
    if word.isEmpty then none else some (String.ofList word, cs.drop word.length)

/-- How deep values may be nested in one another, and how many parts a key may have. -/
def maxDepth : Nat := 79

/-- A key, perhaps with dots, of at most a number of parts. -/
def keyParts : (parts : Nat) → Read (List String)
  | 0, _ => none
  | parts + 1, cs => do
    let (first, rest) ← simpleKey (skipBlanks cs)
    match skipBlanks rest with
    | '.' :: rest =>
      let (more, rest) ← keyParts parts rest
      return (first :: more, rest)
    | rest => return ([first], rest)

def key : Read (List String) :=
  keyParts maxDepth

/-- Skips blanks, line breaks and comments between the items of an array. -/
def skipLines : (fuel : Nat) → List Char → Option (List Char)
  | 0, cs => some cs
  | fuel + 1, cs => do
    match ← skipComment (skipBlanks cs) with
    | '\n' :: rest => skipLines fuel rest
    | '\r' :: '\n' :: rest => skipLines fuel rest
    | rest => some rest

mutual

/-- A value in which others may be nested to a depth. -/
def value : (fuel depth : Nat) → Read Toml
  | 0, _, _ => none
  | fuel + 1, depth, cs =>
    match cs with
    | '\x22' :: _ | '\x27' :: _ => do
      let (s, rest) ← quotedString cs
      return (.string s, rest)
    | '[' :: rest =>
      match depth with
      | 0 => none
      | depth + 1 => do
        let (items, rest) ← items fuel depth rest
        return (.array items, rest)
    | '\x7b' :: rest =>
      match depth with
      | 0 => none
      | depth + 1 =>
        match skipBlanks rest with
        | '\x7d' :: rest => some (.table .inline [], rest)
        | rest => do
          let (fields, rest) ← fields fuel depth [] rest
          return (.table .inline fields, rest)
    | _ => word cs

/-- The items of an array up to its bracket. A comma may stand after the last one. -/
def items : (fuel depth : Nat) → Read (List Toml)
  | 0, _, _ => none
  | fuel + 1, depth, cs => do
    match ← skipLines (cs.length + 1) cs with
    | ']' :: rest => return ([], rest)
    | cs =>
      let (item, rest) ← value fuel depth cs
      match ← skipLines (rest.length + 1) rest with
      | ',' :: rest =>
        let (more, rest) ← items fuel depth rest
        return (item :: more, rest)
      | ']' :: rest => return ([item], rest)
      | _ => none

/-- The fields of a table between braces, all on one line. -/
def fields : (fuel depth : Nat) → (sofar : Fields) → Read Fields
  | 0, _, _, _ => none
  | fuel + 1, depth, sofar, cs => do
    let (path, rest) ← key cs
    match rest with
    | '=' :: rest =>
      let (v, rest) ← value fuel depth (skipBlanks rest)
      let sofar ← define v true path sofar
      match skipBlanks rest with
      | ',' :: rest => fields fuel depth sofar rest
      | '\x7d' :: rest => return (sofar, rest)
      | _ => none
    | _ => none

end

/-- The document read so far and the table that lines add to. -/
structure State where
  root : Fields
  current : List String

/-- Reads one line that is not empty. -/
def line (s : State) (cs : List Char) : Option (State × List Char) :=
  match cs with
  | '[' :: '[' :: rest => do
    let (path, rest) ← key rest
    match rest with
    | ']' :: ']' :: rest => return (⟨← openRow path s.root, path⟩, ← endLine rest)
    | _ => none
  | '[' :: rest => do
    let (path, rest) ← key rest
    match rest with
    | ']' :: rest => return (⟨← openTable path s.root, path⟩, ← endLine rest)
    | _ => none
  | _ => do
    let (path, rest) ← key cs
    match rest with
    | '=' :: rest =>
      let (v, rest) ← value (2 * rest.length + 2) maxDepth (skipBlanks rest)
      return ({ s with root := ← onTable (define v true path) s.current s.root }, ← endLine rest)
    | _ => none

def lines : (fuel : Nat) → State → List Char → Option Fields
  | 0, _, _ => none
  | fuel + 1, s, cs =>
    match skipBlanks cs with
    | [] => some s.root
    | '#' :: rest => do lines fuel s (← endLine ('#' :: rest))
    | '\n' :: rest => lines fuel s rest
    | '\r' :: '\n' :: rest => lines fuel s rest
    | cs => do
      let (s, rest) ← line s cs
      lines fuel s rest

/-- The top-level table of a document, which may begin with a byte order mark. -/
def ofText? (source : String) : Option Fields :=
  let cs := match source.toList with
    | '\ufeff' :: cs => cs
    | cs => cs
  lines (cs.length + 2) ⟨[], []⟩ cs

end SqlTree.Toml

import SqlTree.Error
import SqlTree.Options
import SqlTree.Toml.Reader

namespace SqlTree

namespace Toml

/-- Nothing is in an array or a table. -/
def isEmpty : Toml → Bool
  | .array [] | .table _ [] => true
  | _ => false

/-- A key that names a member of a finite vocabulary, or is missing. The name is a string, or the single
key of a table, with nothing in it. -/
def choice? {α : Type} [Enumerated α] (fields : Fields) (name : String) (missing : α) : Option α :=
  match field? name fields with
  | none => some missing
  | some (.string s) => Enumerated.ofTag? s
  | some (.table _ [(s, inner)]) => if inner.isEmpty then Enumerated.ofTag? s else none
  | some _ => none

/-- A key that is true or false, or is missing. -/
def flag? (fields : Fields) (name : String) (missing : Bool) : Option Bool :=
  match field? name fields with
  | none => some missing
  | some (.boolean b) => some b
  | some _ => none

end Toml

namespace RenderOptions

/-- The keys `mode`, `placeholder` and `pretty` of a document; other keys are passed over. -/
def ofToml (source : String) : Except Error RenderOptions :=
  let options? : Option RenderOptions := do
    let fields ← Toml.ofText? source
    let mode ← Toml.choice? fields "mode" Mode.inline
    let placeholder ← Toml.choice? fields "placeholder" Placeholder.positional
    return ⟨mode, placeholder, ← Toml.flag? fields "pretty" false⟩
  match options? with
  | some options => .ok options
  | none => .error .config

end RenderOptions

end SqlTree

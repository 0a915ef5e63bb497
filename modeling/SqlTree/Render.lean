import SqlTree.Bind
import SqlTree.Render.Form

namespace SqlTree

/-- What a document is written with, besides the writer. -/
structure Context where
  dialect : Dialect
  options : RenderOptions

namespace Context

/-- The context as messages show it. -/
def shown (ctx : Context) : String :=
  "RenderContext \x7b dialect: " ++ escapedText ctx.dialect.name ++
    ", options: RenderOptions \x7b mode: " ++ ctx.options.mode.label ++ ", placeholder: " ++
    ctx.options.placeholder.label ++ ", pretty: " ++ (if ctx.options.pretty then "true" else "false") ++
    " \x7d \x7d"

/-- Records a parameter and writes its placeholder. -/
def place (param : BindParam) (placeholder : String) : Writing Error Unit :=
  modify fun w => (w.pushParam param).write placeholder

/-- Enters a name in the writer's book of names. -/
def enterName (name : String) (value : Option Literal) : Writing Error Unit := do
  match (← get).bindNamed name value with
  | .ok w => set w
  | .error cause => throw (.invalid cause)

/-- Binds a parameter. One without a value is bound by its name, or not at all. -/
def bindParam (ctx : Context) (p : Param) : Writing Error Unit :=
  match p.value with
  | none =>
    match p.kind with
    | .named name => do
      enterName name none
      place ⟨some name, none⟩ (":" ++ name)
    | .ordinal index => throw (.unbound (.ordinal index))
    | .anonymous => throw (.unbound .anonymous)
  | some value => do
    let w ← get
    let index := w.params.length + 1
    match ctx.options.placeholder with
    | .positional => place ⟨p.name?, some value⟩ "?"
    | .ordinal => place ⟨p.name?, some value⟩ ("$" ++ toString index)
    | .named =>
      let name := p.name?.getD (w.generatedName index)
      enterName name (some value)
      place ⟨some name, some value⟩ (":" ++ name)

end Context

namespace Doc

/-- Parentheses around text that begins with a minus sign. -/
def guardMinus (s : String) : String :=
  match s.toList with
  | '-' :: _ => "(" ++ s ++ ")"
  | _ => s

/-- Writes a document. -/
def write (ctx : Context) : Doc → Writing Error Unit
  | .empty => pure ()
  | .text s => Writing.put s
  | .gap => modify (·.separator)
  | .append first second => do
    first.write ctx
    second.write ctx
  | .block body => Writing.nested (body.write ctx)
  | .require construct =>
    if ctx.dialect.capabilities.supports construct.feature then pure ()
    else throw (.unsupported construct ctx.dialect.name)
  | .fail error => throw error
  | .note event => modify (·.note event)
  | .param p inline => if ctx.options.mode = .bind then ctx.bindParam p else inline.write ctx
  | .afterMinus body => Writing.captured guardMinus (body.write ctx)

end Doc

/-- The outcome of a rendering and the events of it. -/
structure Report where
  result : Except Error SqlText
  log : List Event

namespace Tree

/-- Writes a node on a page. -/
def write {k : Kind} (t : Tree k) (ctx : Context) : Writing Error Unit :=
  (t.doc ctx.dialect.toStyle).write ctx

/-- Renders a node on a page of its own, on which some names may be reserved. -/
def renderOn {k : Kind} (t : Tree k) (ctx : Context) (reserved : List String) : Report :=
  let page := (Writer.blank ctx.options.pretty).reserve reserved
  match (t.write ctx).run page with
  | (.ok (), w) => ⟨.ok w.finish, w.log⟩
  | (.error e, w) => ⟨.error e, w.log⟩

/-- Renders a node. When values are bound, the tree is prepared first and the caller's names are
reserved. -/
def render {k : Kind} (t : Tree k) (dialect : Dialect) (options : RenderOptions) : Report :=
  let ctx : Context := ⟨dialect, options⟩
  let began := Event.rendering dialect.name options.mode options.placeholder
  match options.mode with
  | .inline =>
    let report := t.renderOn ctx []
    { report with log := began :: report.log }
  | .bind =>
    match t.prepare with
    | .error e => ⟨.error e, began :: t.number.log⟩
    | .ok tree? =>
      let tree := tree?.getD t
      let report := tree.renderOn ctx tree.callerNames
      { report with log := began :: t.number.log ++ report.log }

/-- The text of a node in the standard dialect with values in it. -/
def toSql {k : Kind} (t : Tree k) : Except Error String :=
  (t.render .standard .inline).result.map (·.sql)

end Tree

end SqlTree

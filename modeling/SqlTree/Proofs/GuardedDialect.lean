import SqlTree.Proofs.Drawn
import SqlTree.Proofs.SpelledText

namespace SqlTree

open Scan

/-- The standard renderers, quotes and operators, and none of the notations that write text of the caller
as it is. -/
structure Dialect.Guarded (dialect : Dialect) : Prop where
  renderers : dialect.toStyle.StandardRenderers
  quoter : dialect.quoter = .standard
  comparison : dialect.comparison = ComparisonOp.symbol
  arithmetic : dialect.arithmetic = ArithmeticOp.symbol
  operators : dialect.capabilities.supports .customOperator = false
  escapes : dialect.capabilities.supports .escapeStringLiteral = false
  dollars : dialect.capabilities.supports .dollarStringLiteral = false

/-- A parameter is written as its placeholder or, when values are not bound, as it is by itself. -/
theorem Doc.Leads.param {ctx : Context} {P Q : Scan → Prop} {p : Param} {inline : Doc}
    (placed : ∀ w shown, p.ShownAs w shown → Text.Leads shown P Q) (unplaced : inline.Leads ctx P Q) :
    (Doc.param p inline).Leads ctx P Q := by
  intro w v writes
  by_cases bind : ctx.options.mode = .bind
  · obtain ⟨shown, showing, grown⟩ := (Doc.Writes.placed bind writes).shown
    exact ⟨shown, grown, placed w shown showing⟩
  · exact unplaced w v ((Doc.Writes.param_inline_iff bind).mp writes)

namespace Dialect.Guarded

variable {ctx : Context} (guarded : ctx.dialect.Guarded)

include guarded

theorem identDoc (i : Identifier) : (ctx.dialect.identDoc i).Sound ctx := by
  intro opened
  unfold Style.identDoc
  rw [guarded.quoter]
  exact .text (.identifier i)

theorem nameDoc (name : QualifiedName) : (ctx.dialect.nameDoc name).Sound ctx := by
  intro opened
  unfold Style.nameDoc
  rw [guarded.quoter]
  exact .text (.qualified name.parts)

theorem identsDoc (is : List Identifier) : (ctx.dialect.identsDoc is).Sound ctx := by
  refine Doc.Sound.separated rfl fun d member => ?_
  obtain ⟨i, _, rfl⟩ := List.mem_map.mp member
  exact guarded.identDoc i

/-- An optional name with a dot behind it. -/
theorem qualifier (q : Option Identifier) (opened : List Bracket) :
    (Doc.ofOption q fun i => ctx.dialect.identDoc i ++ Doc.text ".").Leads ctx (Clear opened)
      (Clear opened) :=
  .ofOption fun i _ => (guarded.identDoc i opened).append (.text (.ofBreak rfl))

theorem columnDoc (c : ColumnRef) : (ctx.dialect.columnDoc c).Sound ctx :=
  fun opened => (guarded.qualifier c.qualifier opened).append (guarded.identDoc c.name opened)

theorem literalDoc {value : Literal} (valid : value.Valid) : (ctx.dialect.literalDoc value).Sound ctx := by
  intro opened
  unfold Style.literalDoc
  by_cases escape : value.construct? = some .escapeString
  · rw [escape]
    exact .withheld guarded.escapes
  by_cases dollar : value.construct? = some .dollarString
  · rw [dollar]
    exact .withheld guarded.dollars
  · exact (Doc.Leads.ofOption fun _ _ => .require).append (.text (.literal _ valid escape dollar))

theorem paramDoc {p : Param} (valid : p.Valid) : (ctx.dialect.paramDoc p).Sound ctx := by
  intro opened
  refine .param (fun _ _ showing => (Text.Leads.plain (showing.plain valid)).loosen) ?_
  cases carried : p.value with
  | none => exact .text (Text.Leads.plain valid.kind_plain).loosen
  | some value =>
    dsimp only
    rw [guarded.renderers]
    exact guarded.literalDoc (valid.2 value carried) opened

theorem operatorDoc (op : CustomOperator) {P Q : Scan → Prop} :
    (ctx.dialect.operatorDoc op).Leads ctx P Q :=
  .withheld guarded.operators

end Dialect.Guarded

end SqlTree

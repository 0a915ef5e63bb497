import SqlTree.Proofs.GuardedDialect

/-!
The documents of expressions and conditions are sound when those of their operands are. No operator lets
its operands run into each other: a break stands between them, or parentheses around them.
-/
namespace SqlTree

open Scan

/-- The document of a node is sound. -/
def Drawn.Sound (ctx : Context) {k : Kind} (part : Drawn k) : Prop :=
  part.value.Sound ctx

namespace Render

variable {ctx : Context} {opened : List Bracket}

theorem sound_list {k : Kind} {parts : List (Drawn k)} (below : ∀ part ∈ parts, part.Sound ctx) :
    (Render.list parts).Sound ctx := by
  refine Doc.Sound.separated rfl fun d member => ?_
  obtain ⟨part, mem, rfl⟩ := List.mem_map.mp member
  exact below part mem

theorem sound_operand {e : Drawn .expr} (wrap : Nat → Bool) (below : e.Sound ctx) :
    (Render.operand wrap e).Sound ctx := by
  unfold Render.operand
  split
  · split
    · exact .parens below
    · exact below
  · exact below

theorem sound_tight {e : Drawn .expr} (below : e.Sound ctx) : (Render.tight e).Sound ctx :=
  sound_operand _ below

theorem sound_side {e : Drawn .expr} (below : e.Sound ctx) : (Render.side e).Sound ctx :=
  sound_operand _ below

/-- What follows the arguments of a call may follow anything. -/
theorem leads_callTail {groups : Option (Drawn .orderBy)} {filter : Option (Drawn .predicate)}
    {window : Option (Drawn .overClause)} (atGroups : ∀ o ∈ groups, o.Sound ctx)
    (atFilter : ∀ p ∈ filter, p.Sound ctx) (atWindow : ∀ o ∈ window, o.Sound ctx) :
    (Render.callTail groups filter window).Leads ctx (Loose opened) (Loose opened) := by
  refine .append (.ofOption fun o member => ?_)
    (.append (.ofOption fun p member => ?_) (.ofOption fun o member => ?_))
  · exact Doc.Leads.require.spaced rfl (Doc.Sound.parens (atGroups o member) opened)
  · have inner : (Doc.text "WHERE " ++ p.value).Sound ctx := fun o =>
      (Doc.Leads.text (.steady rfl)).append (atFilter p member o)
    exact Doc.Leads.require.spaced rfl (Doc.Sound.parens inner opened)
  · exact .behind rfl (atWindow o member)

theorem sound_call (guarded : ctx.dialect.Guarded) (name : QualifiedName) (distinct : Bool)
    {arguments tail : Doc} (atArguments : arguments.Sound ctx)
    (atTail : ∀ opened, tail.Leads ctx (Loose opened) (Loose opened)) :
    (Render.call ctx.dialect.toStyle name distinct arguments tail).Sound ctx := by
  intro opened
  have inner : (Doc.when distinct (Doc.text "DISTINCT ") ++ arguments).Sound ctx := fun o =>
    (Doc.Leads.when (.text (.steady rfl))).append (atArguments o)
  exact ((guarded.nameDoc name opened).append (Doc.Leads.parens inner).loosen).append (atTail opened)

theorem sound_case {subject otherwise : Option (Drawn .expr)} {arms : List (Drawn .expr × Drawn .expr)}
    (atSubject : ∀ e ∈ subject, e.Sound ctx) (atArms : ∀ arm ∈ arms, arm.1.Sound ctx ∧ arm.2.Sound ctx)
    (atOtherwise : ∀ e ∈ otherwise, e.Sound ctx) : (Render.case subject arms otherwise).Sound ctx := by
  intro opened
  have head : (Doc.text "CASE").Leads ctx (Clear opened) (Loose opened) :=
    .loosen (.text (.steady rfl))
  have body : ∀ arm ∈ arms, (Doc.text " WHEN " ++ arm.1.value ++ Doc.text " THEN " ++ arm.2.value).Leads ctx
      (Loose opened) (Loose opened) := fun arm member =>
    (Doc.Leads.behind rfl (atArms arm member).1).spaced rfl ((atArms arm member).2 opened)
  refine .trail (.trail (.trail (.trail head ?_) (.concat body)) ?_) (.loosen (.text (.ofBreak rfl)))
  · exact .ofOption fun e member => .behind rfl (atSubject e member)
  · exact .ofOption fun e member => .behind rfl (atOtherwise e member)

theorem sound_arithmetic (guarded : ctx.dialect.Guarded) (op : ArithmeticOp) {lhs rhs : Drawn .expr}
    (left : lhs.Sound ctx) (right : rhs.Sound ctx) :
    (Render.arithmetic ctx.dialect.toStyle op lhs rhs).Sound ctx := by
  intro opened
  have symbol : Text.isBreak (" " ++ ctx.dialect.arithmetic op ++ " ") = true := by
    rw [guarded.arithmetic]
    cases op <;> rfl
  exact ((Doc.Leads.when .require).append (sound_operand _ left opened)).spaced symbol
    (sound_operand _ right opened)

/-- The minus sign of a negation and that of a negative number do not meet. -/
theorem sound_negate {e : Drawn .expr} (below : e.Sound ctx) : (Render.negate e).Sound ctx := by
  intro opened
  have sign : (Doc.text "-").Leads ctx (Clear opened) (Dash opened) := .text (.minusSign)
  refine sign.append ?_
  split
  · exact ((Doc.Leads.parens below).mono (fun _ h => h.loose) fun _ h => h).loosen
  · exact .afterMinus below

theorem sound_typeName (guarded : ctx.dialect.Guarded) {base : TypeBase} (checked : base.check = .ok ())
    (dims : UInt32) (zone : TimeZoneSpec) {modifiers : List (Drawn .expr)}
    (below : ∀ e ∈ modifiers, e.Sound ctx) :
    (Render.typeName ctx.dialect.toStyle base dims zone modifiers).Sound ctx := by
  intro opened
  refine .trail (.trail (.trail ?_ ?_) ?_) ?_
  · cases base with
    | keyword word => exact .loosen (.text (.plain (TypeBase.keyword_plain checked)))
    | named name => exact guarded.nameDoc name opened
  · exact .when (Doc.Leads.parens (sound_list below)).loosen
  · cases zone with
    | none => exact .empty
    | withTimeZone | withoutTimeZone => exact .append .require (.loosen (.text (.ofBreak rfl)))
  · refine .when (.append .require (.text (.joined (fun _ h => h) (fun part member => ?_) .empty)))
    rw [List.eq_of_mem_replicate member]
    exact .loosen (.ofBreak rfl)

theorem sound_comparison (guarded : ctx.dialect.Guarded) (op : ComparisonOp) {lhs rhs : Drawn .expr}
    (left : lhs.Sound ctx) (right : rhs.Sound ctx) :
    (Render.comparison ctx.dialect.toStyle op lhs rhs).Sound ctx := by
  intro opened
  have symbol : Text.isBreak (" " ++ ctx.dialect.comparison op ++ " ") = true := by
    rw [guarded.comparison]
    cases op <;> rfl
  exact (sound_side left opened).spaced symbol (sound_side right opened)

theorem sound_between (symmetric : Bool) {e low high : Drawn .expr} (atValue : e.Sound ctx)
    (atLow : low.Sound ctx) (atHigh : high.Sound ctx) : (Render.between symmetric e low high).Sound ctx := by
  intro opened
  have symmetry : (Doc.when symmetric (Doc.require .symmetricBetween ++ Doc.text "SYMMETRIC ")).Leads ctx
      (Clear opened) (Clear opened) :=
    .when (.append .require (.text (.steady rfl)))
  exact (((sound_side atValue opened).spaced rfl symmetry).append (sound_side atLow opened)).spaced rfl
    (sound_side atHigh opened)

theorem sound_like (negated : Bool) {e pattern : Drawn .expr} {escape : Option (Drawn .expr)}
    (atValue : e.Sound ctx) (atPattern : pattern.Sound ctx) (atEscape : ∀ x ∈ escape, x.Sound ctx) :
    (Render.like negated e pattern escape).Sound ctx := by
  intro opened
  have word : Text.isBreak (if negated then " NOT LIKE " else " LIKE ") = true := by cases negated <;> rfl
  exact ((sound_side atValue opened).spaced word (sound_side atPattern opened)).trail
    (.ofOption fun x member => .behind rfl (sound_side (atEscape x member)))

theorem sound_quantified (guarded : ctx.dialect.Guarded) (op : ComparisonOp) (quantifier : Quantifier)
    {e : Drawn .expr} {query : Drawn .query} (atValue : e.Sound ctx) (atQuery : query.Sound ctx) :
    (Render.quantified ctx.dialect.toStyle op quantifier e query).Sound ctx := by
  intro opened
  have symbol : Text.isBreak (" " ++ ctx.dialect.comparison op) = true := by
    rw [guarded.comparison]
    cases op <;> rfl
  refine .append ((sound_side atValue opened).spaced symbol (.text ?_)) (Doc.Sound.block atQuery opened)
  cases quantifier <;> exact .steady rfl

theorem sound_negation {p : Drawn .predicate} (below : p.Sound ctx) : (Render.negation p).Sound ctx := by
  intro opened
  refine .append (.text (.steady rfl)) ?_
  split
  · exact Doc.Sound.parens below opened
  · exact below opened

theorem sound_joined (op : LogicalOp) {p : Drawn .predicate} (below : p.Sound ctx) :
    (Render.joined op p).Sound ctx := by
  unfold Render.joined
  split
  · exact .parens below
  · exact below

theorem sound_connective (op : LogicalOp) {lhs rhs : Drawn .predicate} (left : lhs.Sound ctx)
    (right : rhs.Sound ctx) : (Render.connective op lhs rhs).Sound ctx := by
  intro opened
  refine (sound_joined op left opened).spaced ?_ (sound_joined op right opened)
  cases op <;> rfl

end Render

end SqlTree

import SqlTree.Proofs.Filled
import SqlTree.Render.Form

/-!
Rendering respects every relation of documents that respects how documents are put together: related
documents below a node give related documents of the node, as long as the nodes look alike to the
renderers.
-/
namespace SqlTree

/-- What renderers ask about a node below, apart from its document. -/
def Tree.Looks : {k : Kind} → Tree k → Tree k → Prop
  | .expr, t, u =>
    Expr.binding? t = Expr.binding? u ∧ Expr.arithmeticOp? t = Expr.arithmeticOp? u
  | .predicate, t, u => Predicate.connective? t = Predicate.connective? u
  | .query, t, u => Query.isPlain t = Query.isPlain u
  | .limitOffset, t, u => t.window = u.window
  | _, _, _ => True

/-- Nodes that look alike, with related documents. -/
structure Drawn.Related (R : Doc → Doc → Prop) {k : Kind} (a b : Drawn k) : Prop where
  looks : a.tree.Looks b.tree
  doc : R a.value b.value

/-- A relation of documents that holds of equal ones and passes from parts to wholes. -/
structure Doc.Congruence (R : Doc → Doc → Prop) : Prop where
  refl : ∀ d, R d d
  append : ∀ {a b c d}, R a b → R c d → R (a ++ c) (b ++ d)
  block : ∀ {a b}, R a b → R (.block a) (.block b)
  afterMinus : ∀ {a b}, R a b → R (.afterMinus a) (.afterMinus b)

theorem windows_eq {R : Doc → Doc → Prop} {x y : Option (Drawn .limitOffset)}
    (related : Option.Rel (Drawn.Related R) x y) :
    x.map (·.tree.window) = y.map (·.tree.window) := by
  cases related with
  | none => rfl
  | some h => exact congrArg some h.looks

namespace Doc.Congruence

variable {R : Doc → Doc → Prop} (c : Congruence R)

include c

theorem before {a b : Doc} (lead : Doc) (h : R a b) : R (lead ++ a) (lead ++ b) :=
  c.append (c.refl lead) h

theorem after {a b : Doc} (h : R a b) (tail : Doc) : R (a ++ tail) (b ++ tail) :=
  c.append h (c.refl tail)

theorem parens {a b : Doc} (h : R a b) : R (Doc.parens a) (Doc.parens b) :=
  c.after (c.before _ h) _

theorem when (condition : Bool) {a b : Doc} (h : R a b) :
    R (Doc.when condition a) (Doc.when condition b) := by
  cases condition with
  | true => exact h
  | false => exact c.refl _

theorem ofOption {α β : Type} {Q : α → β → Prop} {x : Option α} {y : Option β} {f : α → Doc} {g : β → Doc}
    (related : Option.Rel Q x y) (each : ∀ {a b}, Q a b → R (f a) (g b)) :
    R (Doc.ofOption x f) (Doc.ofOption y g) := by
  cases related with
  | none => exact c.refl _
  | some h => exact each h

theorem concat {α β : Type} {Q : α → β → Prop} {xs : List α} {ys : List β} {f : α → Doc} {g : β → Doc}
    (related : List.Forall₂ Q xs ys) (each : ∀ {a b}, Q a b → R (f a) (g b)) :
    R (Doc.concat (xs.map f)) (Doc.concat (ys.map g)) := by
  induction related with
  | nil => exact c.refl _
  | cons h _ ih => exact c.append (each h) ih

theorem separated (separator : Doc) {xs ys : List Doc} (related : List.Forall₂ R xs ys) :
    R (Doc.separated separator xs) (Doc.separated separator ys) := by
  induction related with
  | nil => exact c.refl _
  | cons h rest ih =>
    cases rest with
    | nil => exact h
    | cons => exact c.append (c.after h separator) ih

theorem list {k : Kind} {ps qs : List (Drawn k)} (related : List.Forall₂ (Drawn.Related R) ps qs) :
    R (Render.list ps) (Render.list qs) := by
  apply c.separated
  rw [List.forall₂_map_left_iff, List.forall₂_map_right_iff]
  exact related.imp fun _ _ h => h.doc

theorem operand (wrap : Nat → Bool) {a b : Drawn .expr} (h : Drawn.Related R a b) :
    R (Render.operand wrap a) (Render.operand wrap b) := by
  unfold Render.operand
  rw [h.looks.1]
  split
  · split
    · exact c.parens h.doc
    · exact h.doc
  · exact h.doc

theorem tight {a b : Drawn .expr} (h : Drawn.Related R a b) : R (Render.tight a) (Render.tight b) :=
  c.operand _ h

theorem side {a b : Drawn .expr} (h : Drawn.Related R a b) : R (Render.side a) (Render.side b) :=
  c.operand _ h

theorem callTail {groups groups' : Option (Drawn .orderBy)} {filter filter' : Option (Drawn .predicate)}
    {window window' : Option (Drawn .overClause)} (atGroups : Option.Rel (Drawn.Related R) groups groups')
    (atFilter : Option.Rel (Drawn.Related R) filter filter')
    (atWindow : Option.Rel (Drawn.Related R) window window') :
    R (Render.callTail groups filter window) (Render.callTail groups' filter' window') := by
  refine c.append (c.ofOption atGroups fun h => ?_)
    (c.append (c.ofOption atFilter fun h => ?_) (c.ofOption atWindow fun h => ?_))
  · exact c.before _ (c.parens h.doc)
  · exact c.before _ (c.parens (c.before _ h.doc))
  · exact c.before _ h.doc

theorem call (style : Style) (name : QualifiedName) (distinct : Bool) {arguments arguments' tail tail' : Doc}
    (atArguments : R arguments arguments') (atTail : R tail tail') :
    R (Render.call style name distinct arguments tail) (Render.call style name distinct arguments' tail') :=
  c.append (c.before _ (c.parens (c.before _ atArguments))) atTail

theorem case {subject subject' otherwise otherwise' : Option (Drawn .expr)}
    {arms arms' : List (Drawn .expr × Drawn .expr)}
    (atSubject : Option.Rel (Drawn.Related R) subject subject')
    (atArms : List.Forall₂ (fun x y => Drawn.Related R x.1 y.1 ∧ Drawn.Related R x.2 y.2) arms arms')
    (atOtherwise : Option.Rel (Drawn.Related R) otherwise otherwise') :
    R (Render.case subject arms otherwise) (Render.case subject' arms' otherwise') := by
  refine c.after (c.append (c.append (c.before _ (c.ofOption atSubject fun h => c.before _ h.doc))
    (c.concat atArms fun h => ?_)) (c.ofOption atOtherwise fun h => c.before _ h.doc)) _
  exact c.append (c.after (c.before _ h.1.doc) _) h.2.doc

theorem arithmetic (style : Style) (op : ArithmeticOp) {lhs lhs' rhs rhs' : Drawn .expr}
    (left : Drawn.Related R lhs lhs') (right : Drawn.Related R rhs rhs') :
    R (Render.arithmetic style op lhs rhs) (Render.arithmetic style op lhs' rhs') := by
  simp only [Render.arithmetic, right.looks.2]
  exact c.append (c.after (c.before _ (c.operand _ left)) _) (c.operand _ right)

theorem negate {a b : Drawn .expr} (h : Drawn.Related R a b) : R (Render.negate a) (Render.negate b) := by
  unfold Render.negate
  rw [h.looks.1]
  refine c.before _ ?_
  split
  · exact c.parens h.doc
  · exact c.afterMinus h.doc

theorem typeName (style : Style) (base : TypeBase) (dims : UInt32) (zone : TimeZoneSpec)
    {modifiers modifiers' : List (Drawn .expr)}
    (related : List.Forall₂ (Drawn.Related R) modifiers modifiers') :
    R (Render.typeName style base dims zone modifiers) (Render.typeName style base dims zone modifiers') := by
  refine c.after (c.after (c.before _ ?_) _) _
  cases related with
  | nil => exact c.refl _
  | cons h rest => exact c.parens (c.list (.cons h rest))

theorem negation {a b : Drawn .predicate} (h : Drawn.Related R a b) :
    R (Render.negation a) (Render.negation b) := by
  have looks : Predicate.connective? a.tree = Predicate.connective? b.tree := h.looks
  unfold Render.negation
  rw [looks]
  refine c.before _ ?_
  split
  · exact c.parens h.doc
  · exact h.doc

theorem joined (op : LogicalOp) {a b : Drawn .predicate} (h : Drawn.Related R a b) :
    R (Render.joined op a) (Render.joined op b) := by
  have looks : Predicate.connective? a.tree = Predicate.connective? b.tree := h.looks
  unfold Render.joined
  rw [looks]
  split
  · exact c.parens h.doc
  · exact h.doc

theorem term {a b : Drawn .query} (h : Drawn.Related R a b) : R (Render.term a) (Render.term b) := by
  have looks : Query.isPlain a.tree = Query.isPlain b.tree := h.looks
  unfold Render.term
  rw [looks]
  split
  · exact h.doc
  · exact c.block h.doc

theorem terms (ops : List SetOperator) {qs rs : List (Drawn .query)}
    (related : List.Forall₂ (fun a b => R (Render.term a) (Render.term b)) qs rs) :
    R (Render.terms ops qs) (Render.terms ops rs) := by
  induction related generalizing ops with
  | nil => cases ops <;> exact c.refl _
  | cons h _ ih =>
    cases ops with
    | nil => exact c.refl _
    | cons op ops => exact c.append (c.before _ h) (ih ops)

theorem composite (style : Style) (ops : List SetOperator) {qs rs : List (Drawn .query)}
    {order order' : Option (Drawn .orderBy)} {window window' : Option (Drawn .limitOffset)}
    (atTerms : List.Forall₂ (fun a b => R (Render.term a) (Render.term b)) qs rs)
    (atOrder : Option.Rel (Drawn.Related R) order order')
    (atWindow : Option.Rel (Drawn.Related R) window window') :
    R (Render.composite style ops qs order window) (Render.composite style ops rs order' window') := by
  simp only [Render.composite, windows_eq atWindow, isSome_of_rel atOrder]
  refine c.after (c.append (c.before _ ?_) (c.ofOption atOrder fun h => c.before _ h.doc)) _
  cases atTerms with
  | nil => exact c.refl _
  | cons h rest => exact c.append h (c.terms ops rest)

theorem cte (style : Style) (name : Identifier) (columns : List Identifier) (m : Materialization)
    {body body' : Option (Drawn .query)}
    (related : Option.Rel (fun a b => R (.block a.value) (.block b.value)) body body') :
    R (Render.cte style name columns m body) (Render.cte style name columns m body') := by
  cases related with
  | none => exact c.refl _
  | some h => exact c.before _ h

theorem orderItem (style : Style) (direction : Option Direction) (nulls : Option Nulls)
    {a b : Drawn .expr} (h : Drawn.Related R a b) :
    R (Render.orderItem style direction nulls a) (Render.orderItem style direction nulls b) := by
  refine c.after (c.after (c.append ?_ h.doc) _) _
  cases style.nulls.emulated direction nulls with
  | none => exact c.refl _
  | some => exact c.after (c.before _ h.doc) _

theorem windowSpec (exclude : Option FrameExclusion) {partition partition' : Option (Drawn .partitionBy)}
    {order order' : Option (Drawn .orderBy)} {frame frame' : Option (Drawn .frame)}
    (atPartition : Option.Rel (Drawn.Related R) partition partition')
    (atOrder : Option.Rel (Drawn.Related R) order order')
    (atFrame : Option.Rel (Drawn.Related R) frame frame') :
    R (Render.windowSpec exclude partition order frame)
      (Render.windowSpec exclude partition' order' frame') := by
  have docs : List.Forall₂ R
      ((partition.map (·.value)).toList ++ (order.map (·.value)).toList ++ (frame.map (·.value)).toList)
      ((partition'.map (·.value)).toList ++ (order'.map (·.value)).toList ++
        (frame'.map (·.value)).toList) := by
    cases atPartition <;> cases atOrder <;> cases atFrame <;> simp_all [Drawn.Related.doc]
  simp only [Render.windowSpec, isEmpty_of_forall₂ docs]
  exact c.after (c.separated _ docs) _

/-- The clauses of two SELECTs are related place by place. -/
theorem select (style : Style) {s t : SelectParts Drawn}
    (related : Fill.Rel (Drawn.Related R) Form.select.slots s.toFill t.toFill) :
    R (Render.select style s) (Render.select style t) := by
  obtain ⟨distinct, items, source, joins, filter, groups, having, windows, order, window, lock, _⟩ :=
    related
  simp only [Render.select, windows_eq window, isEmpty_of_forall₂ items, isEmpty_of_forall₂ windows,
    isSome_of_rel order]
  refine c.append (c.after (c.append (c.append (c.append (c.append (c.append (c.append (c.append
    (c.append (c.after (c.after (c.after (c.before _ ?_) _) _) _) ?_) ?_) ?_) ?_) ?_) ?_) ?_) ?_) _) ?_
  · exact c.ofOption distinct fun h => c.before _ h.doc
  · exact c.list items
  · exact c.ofOption source fun h => c.before _ h.doc
  · exact c.concat joins fun h => c.before _ h.doc
  · exact c.ofOption filter fun h => c.before _ h.doc
  · exact c.ofOption groups fun h => c.before _ h.doc
  · exact c.ofOption having fun h => c.before _ h.doc
  · exact c.when _ (c.before _ (c.list windows))
  · exact c.ofOption order fun h => c.before _ h.doc
  · exact c.ofOption lock fun h => c.before _ h.doc

/-- Related documents below a node give related standard documents. -/
theorem standard (style : Style) {k : Kind} (form : Form k) {parts others : Fill Drawn form.slots}
    (related : Fill.Rel (Drawn.Related R) form.slots parts others) :
    R (Render.standard style form parts) (Render.standard style form others) := by
  cases form with
  | expr => exact related.1.doc
  | literal | column | param => exact c.refl _
  | call =>
    obtain ⟨arguments, groups, filter, window, _⟩ := related
    exact c.call _ _ _ (c.list arguments) (c.callTail groups filter window)
  | callStar =>
    obtain ⟨groups, filter, window, _⟩ := related
    exact c.call _ _ _ (c.refl _) (c.callTail groups filter window)
  | case =>
    obtain ⟨subject, arms, otherwise, _⟩ := related
    exact c.case subject arms otherwise
  | arithmetic => exact c.arithmetic _ _ related.1 related.2.1
  | negate => exact c.negate related.1
  | customBinary =>
    exact c.append (c.after (c.after (c.after (c.tight related.1) _) _) _) (c.tight related.2.1)
  | customUnary => exact c.before _ (c.tight related.1)
  | cast => exact c.after (c.append (c.after (c.before _ related.1.doc) _) related.2.1.doc) _
  | typeName => exact c.typeName _ _ _ _ related.1
  | array => exact c.after (c.before _ (c.list related.1)) _
  | row => exact c.parens (c.list related.1)
  | rowList => exact c.list related.1
  | subquery => exact c.block related.1.doc
  | collate => exact c.after (c.after (c.tight related.1) _) _
  | atTimeZone => exact c.append (c.after (c.before _ (c.tight related.1)) _) (c.tight related.2.1)
  | predicate => exact related.1.doc
  | comparison => exact c.append (c.after (c.side related.1) _) (c.side related.2.1)
  | between =>
    obtain ⟨e, low, high, _⟩ := related
    exact c.append (c.after (c.append (c.after (c.after (c.side e) _) _) (c.side low)) _) (c.side high)
  | like =>
    obtain ⟨e, pattern, escape, _⟩ := related
    exact c.append (c.append (c.after (c.side e) _) (c.side pattern))
      (c.ofOption escape fun h => c.before _ (c.side h))
  | isNull => exact c.after (c.side related.1) _
  | isDistinctFrom => exact c.append (c.after (c.before _ (c.side related.1)) _) (c.side related.2.1)
  | membership => exact c.append (c.after (c.side related.1) _) related.2.1.doc
  | existence => exact c.before _ (c.block related.1.doc)
  | quantified => exact c.append (c.after (c.after (c.side related.1) _) _) (c.block related.2.1.doc)
  | condition => exact related.1.doc
  | negation => exact c.negation related.1
  | connective => exact c.append (c.after (c.joined _ related.1) _) (c.joined _ related.2.1)
  | valueSet variant =>
    cases variant with
    | query => exact c.block related.1.doc
    | row => exact related.1.doc
    | rowList => exact c.parens related.1.doc
  | tableRef => exact related.1.doc
  | namedTable => exact c.refl _
  | subqueryTable => exact c.after (c.block related.1.doc) _
  | valuesTable => exact c.after (c.parens (c.before _ related.1.doc)) _
  | functionTable => exact c.after related.1.doc _
  | lateralTable => exact c.before _ related.1.doc
  | join => exact related.1.doc
  | crossJoin | naturalJoin => exact c.before _ related.1.doc
  | usingJoin => exact c.after (c.after (c.before _ related.1.doc) _) _
  | onJoin => exact c.append (c.after (c.before _ related.1.doc) _) related.2.1.doc
  | query => exact related.1.doc
  | select => exact c.select style related
  | composite => exact c.composite style _ (related.1.imp fun _ _ h => c.term h) related.2.1 related.2.2.1
  | withQuery => exact c.append (c.after (c.before _ (c.list related.1)) _) related.2.1.doc
  | cte => exact c.cte style _ _ _ (rel_imp (fun h => c.block h.doc) related.1)
  | aliased => exact c.after related.1.doc _
  | star | qualifiedStar | distinct => exact c.refl _
  | distinctOn => exact c.before _ (c.parens (c.list related.1))
  | groupBy | orderBy => exact c.before _ (c.list related.1)
  | orderItem => exact c.orderItem style _ _ related.1
  | limitOffset | locking => exact c.refl _
  | windowDef => exact c.before _ (c.parens related.1.doc)
  | windowSpec => exact c.windowSpec _ related.1 related.2.1 related.2.2.1
  | overName => exact c.refl _
  | overSpec => exact c.parens related.1.doc
  | partitionBy => exact c.before _ (c.list related.1)
  | frameFrom => exact c.before _ related.1.doc
  | frameBetween => exact c.append (c.after (c.before _ related.1.doc) _) related.2.1.doc
  | boundAt => exact c.refl _
  | boundOffset => exact c.after related.1.doc _

end Doc.Congruence

end SqlTree

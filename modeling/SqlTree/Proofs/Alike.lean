import SqlTree.Proofs.Congruence
import SqlTree.Proofs.Drawn

namespace SqlTree

mutual

/-- The same node but for the values of it. The flag says whether literals of expressions may differ;
below a type name they may not. -/
inductive Tree.Alike : Bool → {k : Kind} → Tree k → Tree k → Prop
  | literal {a b : Literal} (left : a.isNull = false) (right : b.isNull = false) :
      Tree.Alike true (Expr.literal a) (Expr.literal b)
  | param (free : Bool) (kind : ParamKind) (a b : Literal) :
      Tree.Alike free (.param ⟨kind, some a⟩) (.param ⟨kind, some b⟩)
  | node (free : Bool) {k : Kind} (form : Form k) {below others : Forest form.slots} :
      Forest.Alike (free && decide (k ≠ .typeName)) below others →
      Tree.Alike free (.node form below) (.node form others)

/-- The same nodes, place by place, but for their values. -/
inductive Forest.Alike : Bool → {slots : List Slot} → Forest slots → Forest slots → Prop
  | nil (free : Bool) : Forest.Alike free .nil .nil
  | one {free : Bool} {k : Kind} {slots : List Slot} {t u : Tree k} {rest others : Forest slots} :
      Tree.Alike free t u → Forest.Alike free rest others → Forest.Alike free (.one t rest) (.one u others)
  | absent {free : Bool} {k : Kind} {slots : List Slot} {rest others : Forest slots} :
      Forest.Alike free rest others → Forest.Alike free (.absent (k := k) rest) (.absent others)
  | present {free : Bool} {k : Kind} {slots : List Slot} {t u : Tree k} {rest others : Forest slots} :
      Tree.Alike free t u → Forest.Alike free rest others →
      Forest.Alike free (.present t rest) (.present u others)
  | done {free : Bool} {k : Kind} {slots : List Slot} {rest others : Forest slots} :
      Forest.Alike free rest others → Forest.Alike free (.done (k := k) rest) (.done others)
  | more {free : Bool} {k : Kind} {slots : List Slot} {t u : Tree k}
      {rest others : Forest (.many k :: slots)} :
      Tree.Alike free t u → Forest.Alike free rest others →
      Forest.Alike free (.more t rest) (.more u others)
  | noArm {free : Bool} {slots : List Slot} {rest others : Forest slots} :
      Forest.Alike free rest others → Forest.Alike free (.noArm rest) (.noArm others)
  | arm {free : Bool} {slots : List Slot} {c d t u : Tree .expr} {rest others : Forest (.arms :: slots)} :
      Tree.Alike free c d → Tree.Alike free t u → Forest.Alike free rest others →
      Forest.Alike free (.arm c t rest) (.arm d u others)

end

theorem Forest.Alike.contents : {free : Bool} → {slots : List Slot} → {f g : Forest slots} →
    Forest.Alike free f g → Fill.Rel (Tree.Alike free) slots f.contents g.contents
  | _, _, _, _, .nil _ => trivial
  | _, _, _, _, .one t rest => ⟨t, rest.contents⟩
  | _, _, _, _, .absent rest => ⟨.none, rest.contents⟩
  | _, _, _, _, .present t rest => ⟨.some t, rest.contents⟩
  | _, _, _, _, .done rest => ⟨.nil, rest.contents⟩
  | _, _, _, _, .more t rest => ⟨.cons t rest.contents.1, rest.contents.2⟩
  | _, _, _, _, .noArm rest => ⟨.nil, rest.contents⟩
  | _, _, _, _, .arm c t rest => ⟨.cons ⟨c, t⟩ rest.contents.1, rest.contents.2⟩

theorem Tree.Alike.binding {t u : Expr} (alike : Tree.Alike false t u) :
    Expr.binding? t = Expr.binding? u ∧ Expr.arithmeticOp? t = Expr.arithmeticOp? u := by
  cases alike with
  | node _ form below =>
    cases form with
    | expr variant =>
      cases below with
      | one inner rest =>
        cases rest
        cases variant
        case arithmetic =>
          cases inner with
          | node _ form below => cases form; exact ⟨rfl, rfl⟩
        all_goals exact ⟨rfl, rfl⟩

theorem Tree.Alike.connective {t u : Predicate} (alike : Tree.Alike false t u) :
    Predicate.connective? t = Predicate.connective? u := by
  cases alike with
  | node _ form below =>
    cases form with
    | predicate variant =>
      cases below with
      | one inner rest =>
        cases rest
        cases variant
        case connective =>
          cases inner with
          | node _ form below => cases form; rfl
        all_goals rfl

theorem Tree.Alike.window {t u : Tree .limitOffset} (alike : Tree.Alike false t u) :
    t.window = u.window := by
  cases alike with
  | node _ form below => cases form; cases below; rfl

/-- No order, no lock and no row window that asks for something. -/
def SelectParts.isBare (parts : SelectParts Tree) : Bool :=
  parts.orderBy.isNone && parts.locking.isNone &&
    match parts.limitOffset with
    | some w => w.window.isEmpty
    | none => true

theorem SelectParts.isBare_eq (parts : SelectParts Tree) :
    parts.isBare = (!parts.orderBy.isSome && !parts.locking.isSome &&
      (parts.limitOffset.map Tree.window).all LimitOffset.isEmpty) := by
  obtain ⟨_, _, _, _, _, _, _, _, order, window, lock⟩ := parts
  cases window <;> simp [isBare]

theorem Query.isPlain_select (below : Forest Form.select.slots) :
    Query.isPlain (.of .select (.node .select below)) = (SelectParts.ofFill below.contents).isBare :=
  rfl

theorem Tree.Alike.isPlain {t u : Query} (alike : Tree.Alike false t u) :
    Query.isPlain t = Query.isPlain u := by
  cases alike with
  | node _ form below =>
    cases form with
    | query variant =>
      cases below with
      | one inner rest =>
        cases rest
        cases variant
        case select =>
          cases inner with
          | node _ form below =>
            cases form
            obtain ⟨_, _, _, _, _, _, _, _, order, window, lock, _⟩ := below.contents
            have windows : ∀ {x y : Option (Tree .limitOffset)}, Option.Rel (Tree.Alike false) x y →
                x.map Tree.window = y.map Tree.window := by
              intro x y related
              cases related with
              | none => rfl
              | some alike => exact congrArg some alike.window
            simp only [Query.isPlain_select, SelectParts.isBare_eq, SelectParts.ofFill,
              isSome_of_rel order, isSome_of_rel lock, windows window]
        all_goals rfl

/-- Once literals are the same, renderers see no difference between the nodes. -/
theorem Tree.Alike.looks {k : Kind} {t u : Tree k} (alike : Tree.Alike false t u) : t.Looks u := by
  cases k
  case expr => exact alike.binding
  case predicate => exact alike.connective
  case query => exact alike.isPlain
  case limitOffset => exact alike.window
  all_goals exact trivial

/-- The same document but for parameters, which have the same names or numbers and carry values in both
or in neither. How they are written without binding is left open. -/
inductive Doc.Alike : Doc → Doc → Prop
  | empty : Doc.Alike .empty .empty
  | text (s : String) : Doc.Alike (.text s) (.text s)
  | gap : Doc.Alike .gap .gap
  | append {a b c d : Doc} : Doc.Alike a b → Doc.Alike c d → Doc.Alike (.append a c) (.append b d)
  | block {a b : Doc} : Doc.Alike a b → Doc.Alike (.block a) (.block b)
  | require (construct : Construct) : Doc.Alike (.require construct) (.require construct)
  | fail (error : Error) : Doc.Alike (.fail error) (.fail error)
  | note (event : Event) : Doc.Alike (.note event) (.note event)
  | param {p q : Param} {a b : Doc} : p.kind = q.kind → p.value.isSome = q.value.isSome →
      Doc.Alike (.param p a) (.param q b)
  | afterMinus {a b : Doc} : Doc.Alike a b → Doc.Alike (.afterMinus a) (.afterMinus b)

theorem Doc.Alike.refl (d : Doc) : d.Alike d := by
  induction d with
  | empty => exact .empty
  | text s => exact .text s
  | gap => exact .gap
  | append a b left right => exact .append left right
  | block body ih => exact .block ih
  | require c => exact .require c
  | fail e => exact .fail e
  | note e => exact .note e
  | param p inline _ => exact .param rfl rfl
  | afterMinus body ih => exact .afterMinus ih

theorem Doc.Alike.congruence : Doc.Congruence Doc.Alike where
  refl := Doc.Alike.refl
  append := .append
  block := .block
  afterMinus := .afterMinus

mutual

theorem Tree.Alike.docAlike {style : Style} (standard : style.StandardRenderers) :
    {free : Bool} → {k : Kind} → {t u : Tree k} → Tree.Alike free t u → free = false →
    (t.doc style).Alike (u.doc style)
  | _, _, _, _, .literal .., fixed => by cases fixed
  | _, _, _, _, .param _ kind a b, _ => by
    rw [Tree.doc_node standard, Tree.doc_node standard]
    exact .param rfl rfl
  | _, _, _, _, .node free form below, fixed => by
    rw [Tree.doc_node standard, Tree.doc_node standard]
    exact Doc.Alike.congruence.standard style form (below.drawnAlike standard (by simp [fixed]))

theorem Forest.Alike.drawnAlike {style : Style} (standard : style.StandardRenderers) :
    {free : Bool} → {slots : List Slot} → {f g : Forest slots} → Forest.Alike free f g → free = false →
    Fill.Rel (Drawn.Related Doc.Alike) slots (f.drawn style) (g.drawn style)
  | _, _, _, _, .nil _, _ => trivial
  | _, _, _, _, .one t rest, fixed =>
    ⟨⟨(fixed ▸ t).looks, t.docAlike standard fixed⟩, rest.drawnAlike standard fixed⟩
  | _, _, _, _, .absent rest, fixed => ⟨.none, rest.drawnAlike standard fixed⟩
  | _, _, _, _, .present t rest, fixed =>
    ⟨.some ⟨(fixed ▸ t).looks, t.docAlike standard fixed⟩, rest.drawnAlike standard fixed⟩
  | _, _, _, _, .done rest, fixed => ⟨.nil, rest.drawnAlike standard fixed⟩
  | _, _, _, _, .more t rest, fixed =>
    have others := rest.drawnAlike standard fixed
    ⟨.cons ⟨(fixed ▸ t).looks, t.docAlike standard fixed⟩ others.1, others.2⟩
  | _, _, _, _, .noArm rest, fixed => ⟨.nil, rest.drawnAlike standard fixed⟩
  | _, _, _, _, .arm c t rest, fixed =>
    have others := rest.drawnAlike standard fixed
    ⟨.cons ⟨⟨(fixed ▸ c).looks, c.docAlike standard fixed⟩, ⟨(fixed ▸ t).looks, t.docAlike standard fixed⟩⟩
      others.1, others.2⟩

end

end SqlTree

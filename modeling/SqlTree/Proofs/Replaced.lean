import SqlTree.Build.Expression
import SqlTree.Proofs.Renumbered
import SqlTree.Proofs.TracedParams

namespace SqlTree

/-- Collects the expressions outside type names, in written order. -/
def Visitor.exposed : Visitor Id (List Expr) where
  unit := []
  combine := (· ++ ·)
  enter := fun {k} t below =>
    match k, t with
    | .expr, e => e :: below.run
    | .typeName, _ => []
    | _, _ => below

def Tree.exposed {k : Kind} (t : Tree k) : List Expr :=
  t.visit Visitor.exposed |>.run

/-- An expression whose value is to be bound by a number of its own: a literal other than NULL, or an
anonymous parameter. -/
def Expr.isLoose : Expr → Bool
  | Expr.literal value => !value.isNull
  | Expr.param ⟨.anonymous, _⟩ => true
  | _ => false

/-- The value that comes with a literal or a parameter. -/
def Expr.carried? : Expr → Option Literal
  | Expr.literal value => some value
  | Expr.param p => p.value
  | _ => none

/-- The expressions that preparing replaces, in written order. -/
def Tree.loose {k : Kind} (t : Tree k) : List Expr :=
  t.exposed.filter Expr.isLoose

def Forest.loose {slots : List Slot} (f : Forest slots) : List Expr :=
  (f.total Visitor.exposed).filter Expr.isLoose

/-- Counts literals and parameters. -/
def Visitor.values : Visitor Id Nat where
  unit := 0
  combine := (· + ·)
  enter := fun {k} _ below =>
    match k with
    | .literal | .param => 1
    | _ => below

/-- The number of literals and parameters in a tree. -/
def Tree.valueCount {k : Kind} (t : Tree k) : Nat :=
  t.visit Visitor.values |>.run

mutual

/-- The second tree is the first with some expressions outside type names replaced; the pairs of an old and
a new expression are listed from left to right. -/
inductive Tree.Replaced : {k : Kind} → List (Expr × Expr) → Tree k → Tree k → Prop where
  | swap (old new : Expr) : Tree.Replaced [(old, new)] old new
  | typeName (t : Tree .typeName) : Tree.Replaced [] t t
  | node {k : Kind} (outer : k ≠ .typeName) (form : Form k) {swaps : List (Expr × Expr)}
      {below below' : Forest form.slots} (inside : Forest.Replaced swaps below below') :
      Tree.Replaced swaps (.node form below) (.node form below')

inductive Forest.Replaced : {slots : List Slot} → List (Expr × Expr) → Forest slots → Forest slots → Prop where
  | nil : Forest.Replaced [] .nil .nil
  | one {k : Kind} {slots : List Slot} {here there : List (Expr × Expr)} {t t' : Tree k}
      {rest rest' : Forest slots} (first : Tree.Replaced here t t')
      (others : Forest.Replaced there rest rest') :
      Forest.Replaced (here ++ there) (.one t rest) (.one t' rest')
  | absent {k : Kind} {slots : List Slot} {swaps : List (Expr × Expr)} {rest rest' : Forest slots}
      (others : Forest.Replaced swaps rest rest') :
      Forest.Replaced swaps (.absent (k := k) rest) (.absent rest')
  | present {k : Kind} {slots : List Slot} {here there : List (Expr × Expr)} {t t' : Tree k}
      {rest rest' : Forest slots} (first : Tree.Replaced here t t')
      (others : Forest.Replaced there rest rest') :
      Forest.Replaced (here ++ there) (.present t rest) (.present t' rest')
  | done {k : Kind} {slots : List Slot} {swaps : List (Expr × Expr)} {rest rest' : Forest slots}
      (others : Forest.Replaced swaps rest rest') :
      Forest.Replaced swaps (.done (k := k) rest) (.done rest')
  | more {k : Kind} {slots : List Slot} {here there : List (Expr × Expr)} {t t' : Tree k}
      {rest rest' : Forest (.many k :: slots)} (first : Tree.Replaced here t t')
      (others : Forest.Replaced there rest rest') :
      Forest.Replaced (here ++ there) (.more t rest) (.more t' rest')
  | noArm {slots : List Slot} {swaps : List (Expr × Expr)} {rest rest' : Forest slots}
      (others : Forest.Replaced swaps rest rest') :
      Forest.Replaced swaps (.noArm rest) (.noArm rest')
  | arm {slots : List Slot} {first second there : List (Expr × Expr)} {c c' t t' : Tree .expr}
      {rest rest' : Forest (.arms :: slots)} (condition : Tree.Replaced first c c')
      (result : Tree.Replaced second t t') (others : Forest.Replaced there rest rest') :
      Forest.Replaced (first ++ (second ++ there)) (.arm c t rest) (.arm c' t' rest')

end

theorem Visitor.exposed_lawful : Visitor.exposed.Lawful :=
  ⟨List.append_assoc, List.nil_append, List.append_nil⟩

theorem Visitor.values_lawful : Visitor.values.Lawful :=
  ⟨Nat.add_assoc, Nat.zero_add, Nat.add_zero⟩

theorem Visitor.exposed_enter {k : Kind} (form : Form k) (below : Forest form.slots) (inner : k ≠ .expr)
    (outer : k ≠ .typeName) (result : Id (List Expr)) :
    Visitor.exposed.enter (.node form below) result = result := by
  cases form with
  | expr => exact absurd rfl inner
  | typeName => exact absurd rfl outer
  | _ => rfl

theorem Expr.isLoose_literal (value : Literal) : (Expr.literal value).isLoose = !value.isNull :=
  rfl

theorem Expr.isLoose_plain {form : Form .expr} (other : form.isNumbered = false)
    (below : Forest form.slots) : Expr.isLoose (.node form below) = false := by
  cases form with
  | expr variant => cases variant <;> first | rfl | cases other

/-- At a node that numbering does nothing to, what is replaced is replaced below it. -/
theorem Visitor.loose_enter {k : Kind} {form : Form k} (other : form.isNumbered = false)
    (below : Forest form.slots) (result : Id (List Expr)) :
    List.filter Expr.isLoose (Visitor.exposed.enter (.node form below) result) =
      List.filter Expr.isLoose result := by
  by_cases inner : k = .expr
  · subst inner
    refine List.filter_cons_of_neg ?_
    simp [Expr.isLoose_plain other]
  · rw [Visitor.exposed_enter form below inner (Form.kind_ne_typeName other)]

/-- Literals and parameters are at least as many as the expressions that preparing replaces. -/
theorem Tree.length_loose_le {k : Kind} (t : Tree k) : t.loose.length ≤ t.valueCount := by
  have joins : Visitor.exposed.Joins Visitor.values fun es n => (es.filter Expr.isLoose).length ≤ n :=
    { left := Visitor.exposed_lawful
      right := Visitor.values_lawful
      unit := Nat.le_refl 0
      combine := fun {a b c d} left right => by
        change ((a ++ c).filter Expr.isLoose).length ≤ b + d
        rw [List.filter_append, List.length_append]
        exact Nat.add_le_add left right
      enter := fun {k} form below inside => by
        cases form.numbered with
        | literal =>
          match below with
          | .one (.literal value) .nil => exact List.length_filter_le ..
        | param =>
          match below with
          | .one (.param p) .nil => exact List.length_filter_le ..
        | typeName => exact Nat.zero_le _
        | plain other =>
          rw [Visitor.loose_enter other]
          cases form with
          | literal | param =>
            cases below
            exact Nat.zero_le _
          | _ => exact inside }
  exact joins.visit t

namespace Tree

theorem loose_typeName (t : Tree .typeName) : t.loose = [] := by
  cases t
  rfl

theorem loose_plain {k : Kind} {form : Form k} (other : form.isNumbered = false)
    (below : Forest form.slots) : (Tree.node form below).loose = below.loose := by
  rw [Tree.loose, Tree.exposed, Visitor.exposed_lawful.visit_node]
  exact Visitor.loose_enter other below _

end Tree

namespace Forest

variable {k : Kind} {slots : List Slot}

theorem loose_one (t : Tree k) (rest : Forest slots) : (Forest.one t rest).loose = t.loose ++ rest.loose := by
  rw [Forest.loose, Visitor.exposed_lawful.total_one]
  exact List.filter_append ..

theorem loose_present (t : Tree k) (rest : Forest slots) :
    (Forest.present t rest).loose = t.loose ++ rest.loose := by
  rw [Forest.loose, Visitor.exposed_lawful.total_present]
  exact List.filter_append ..

theorem loose_more (t : Tree k) (rest : Forest (.many k :: slots)) :
    (Forest.more t rest).loose = t.loose ++ rest.loose := by
  rw [Forest.loose, Visitor.exposed_lawful.total_more]
  exact List.filter_append ..

theorem loose_arm (c t : Tree .expr) (rest : Forest (.arms :: slots)) :
    (Forest.arm c t rest).loose = c.loose ++ (t.loose ++ rest.loose) := by
  rw [Forest.loose, Visitor.exposed_lawful.total_arm]
  exact (List.filter_append ..).trans (congrArg _ (List.filter_append ..))

end Forest

theorem Expr.loose_literal {value : Literal} (solid : value.isNull = false) :
    (Expr.literal value).loose = [Expr.literal value] := by
  refine List.filter_cons_of_pos ?_
  rw [Expr.isLoose_literal, solid]
  rfl

namespace Numbering

/-- Expressions with the parameters that replace them, after a number given last. -/
def swaps (last : UInt32) : List Expr → List (Expr × Expr)
  | [] => []
  | e :: rest => (e, Expr.param (.numbered (last + 1) e.carried?)) :: swaps (last + 1) rest

@[simp]
theorem map_fst_swaps (last : UInt32) (es : List Expr) : (swaps last es).map Prod.fst = es := by
  induction es generalizing last with
  | nil => rfl
  | cons e rest ih => simp [swaps, ih]

theorem swaps_append (last : UInt32) (es rest : List Expr) :
    swaps last (es ++ rest) = swaps last es ++ swaps (last + .ofNat es.length) rest := by
  induction es generalizing last with
  | nil => simp [swaps]
  | cons e es ih =>
    have next : last + 1 + UInt32.ofNat es.length = last + UInt32.ofNat (e :: es).length := by
      rw [List.length_cons, UInt32.ofNat_add, UInt32.add_comm (.ofNat es.length), UInt32.add_assoc]
      rfl
    rw [List.cons_append, swaps, ih, next]
    rfl

theorem toNat_succ {last : UInt32} (few : last.toNat + 1 < UInt32.size) : (last + 1).toNat = last.toNat + 1 := by
  rw [UInt32.toNat_add]
  exact Nat.mod_eq_of_lt few

/-- The number of the next parameter, as long as numbers do not run out. -/
theorem toNat_next {last : UInt32} (few : last.toNat + 1 < UInt32.size) :
    (max (last + 1) 1).toNat = last.toNat + 1 := by
  change (if last + 1 ≤ 1 then 1 else last + 1 : UInt32).toNat = _
  split
  · rename_i small
    rw [UInt32.le_iff_toNat_le, toNat_succ few] at small
    simp at small ⊢
    omega
  · exact toNat_succ few

/-- As long as the numbers do not run out, they count the expressions. -/
theorem getElem?_swaps {es : List Expr} {last : UInt32} {swap : Expr × Expr} {i : Nat}
    (few : last.toNat + es.length < UInt32.size) (here : (swaps last es)[i]? = some swap) :
    ∃ index : UInt32, index.toNat = last.toNat + i + 1 ∧
      swap.2 = Expr.param ⟨.ordinal index, swap.1.carried?⟩ := by
  induction es generalizing last i with
  | nil => simp [swaps] at here
  | cons e rest ih =>
    rw [List.length_cons] at few
    cases i with
    | zero =>
      obtain rfl : (e, Expr.param (.numbered (last + 1) e.carried?)) = swap := Option.some.inj here
      exact ⟨max (last + 1) 1, toNat_next (by omega), rfl⟩
    | succ i =>
      have next : (last + 1).toNat = last.toNat + 1 := toNat_succ (by omega)
      obtain ⟨index, count, new⟩ := ih (by omega) here
      exact ⟨index, by omega, new⟩

end Numbering

/-- Numbering counts the loose expressions, and leaves none of them. -/
theorem Visitor.exposed_across : Visitor.exposed.Across Visitor.exposed fun i j es new =>
    j = i + .ofNat (es.filter Expr.isLoose).length ∧ new.filter Expr.isLoose = [] where
  before := Visitor.exposed_lawful
  after := Visitor.exposed_lawful
  unit _ := ⟨(UInt32.add_zero _).symm, rfl⟩
  combine := by
    rintro i j l es new es' new' ⟨first, none⟩ ⟨second, none'⟩
    change l = i + .ofNat ((es ++ es').filter Expr.isLoose).length ∧ (new ++ new').filter Expr.isLoose = []
    rw [List.filter_append, List.filter_append, none, none', List.length_append, UInt32.ofNat_add,
      ← UInt32.add_assoc, ← first]
    exact ⟨second, rfl⟩
  literal value n := by
    by_cases null : value.isNull = true
    · obtain rfl := Literal.eq_null null
      exact ⟨(UInt32.add_zero _).symm, rfl⟩
    · have solid : value.isNull = false := by simpa using null
      rw [Numbering.numbered_literal n solid]
      refine ⟨?_, rfl⟩
      change _ = n.last + .ofNat (Expr.literal value).loose.length
      rw [Expr.loose_literal solid]
      rfl
  param p n := by
    obtain ⟨kind, value⟩ := p
    cases kind with
    | anonymous => exact ⟨rfl, rfl⟩
    | named | ordinal => exact ⟨(UInt32.add_zero _).symm, rfl⟩
  typeName t last := by
    change last = last + .ofNat t.loose.length ∧ t.loose = []
    rw [t.loose_typeName]
    exact ⟨(UInt32.add_zero _).symm, rfl⟩
  plain other below below' _ _ inside := by
    rw [Visitor.loose_enter other, Visitor.loose_enter other]
    exact inside

theorem Tree.last_numbered {k : Kind} (t : Tree k) (n : Numbering) :
    (t.numbered n).2.last = n.last + .ofNat t.loose.length :=
  (Visitor.exposed_across.visit t n).1

theorem Tree.loose_numbered {k : Kind} (t : Tree k) (n : Numbering) : (t.numbered n).1.loose = [] :=
  (Visitor.exposed_across.visit t n).2

theorem Expr.replaced_self {variant : ExprVariant} {t : Tree variant.kind} (kept : t.Replaced [] t) :
    (Expr.of variant t).Replaced [] (Expr.of variant t) := by
  have inside : Forest.Replaced ([] ++ []) (.one t .nil) (.one t .nil) := .one kept .nil
  exact .node (by decide) _ inside

theorem Expr.replaced_param (p : Param) : (Expr.param p).Replaced [] (Expr.param p) :=
  Expr.replaced_self (.node (by decide) _ .nil)

mutual

/-- Numbering replaces the loose expressions in order, each by the parameter of the next number. -/
theorem Tree.replaced_numbered : {k : Kind} → (t : Tree k) → (n : Numbering) →
    t.Replaced (Numbering.swaps n.last t.loose) (t.numbered n).1
  | _, .node form below, n => by
    cases form.numbered with
    | literal =>
      match below with
      | .one (.literal value) .nil =>
        by_cases null : value.isNull = true
        · obtain rfl := Literal.eq_null null
          exact Expr.replaced_self (.node (by decide) _ .nil)
        · have solid : value.isNull = false := by simpa using null
          rw [Numbering.numbered_literal n solid, Expr.loose_literal solid]
          exact .swap _ _
    | param =>
      match below with
      | .one (.param ⟨.anonymous, value⟩) .nil => exact .swap _ _
      | .one (.param ⟨.named name, value⟩) .nil => exact Expr.replaced_param _
      | .one (.param ⟨.ordinal index, value⟩) .nil => exact Expr.replaced_param _
    | typeName => exact .typeName _
    | plain other =>
      rw [Numbering.numbered_plain n other, Tree.loose_plain other]
      exact .node (Form.kind_ne_typeName other) form (below.replaced_numbered n)

theorem Forest.replaced_numbered : {slots : List Slot} → (f : Forest slots) → (n : Numbering) →
    f.Replaced (Numbering.swaps n.last f.loose) (f.numbered n).1
  | _, .nil, _ => .nil
  | _, .one t rest, n => by
    rw [Forest.numbered_one, Forest.loose_one, Numbering.swaps_append, ← t.last_numbered]
    exact .one (t.replaced_numbered n) (rest.replaced_numbered _)
  | _, .absent rest, n => by
    rw [Forest.numbered_absent]
    exact .absent (rest.replaced_numbered n)
  | _, .present t rest, n => by
    rw [Forest.numbered_present, Forest.loose_present, Numbering.swaps_append, ← t.last_numbered]
    exact .present (t.replaced_numbered n) (rest.replaced_numbered _)
  | _, .done rest, n => by
    rw [Forest.numbered_done]
    exact .done (rest.replaced_numbered n)
  | _, .more t rest, n => by
    rw [Forest.numbered_more, Forest.loose_more, Numbering.swaps_append, ← t.last_numbered]
    exact .more (t.replaced_numbered n) (rest.replaced_numbered _)
  | _, .noArm rest, n => by
    rw [Forest.numbered_noArm]
    exact .noArm (rest.replaced_numbered n)
  | _, .arm c t rest, n => by
    rw [Forest.numbered_arm, Forest.loose_arm, Numbering.swaps_append, Numbering.swaps_append,
      ← c.last_numbered, ← t.last_numbered]
    exact .arm (c.replaced_numbered n) (t.replaced_numbered _) (rest.replaced_numbered _)

end

mutual

/-- A tree without loose expressions is kept. -/
theorem Tree.edit_of_loose_nil : {k : Kind} → {t : Tree k} → t.loose = [] →
    t.edit Numbering.editor = pure none
  | _, .node form below, tight => by
    cases form.numbered with
    | literal =>
      match below with
      | .one (.literal value) .nil =>
        by_cases null : value.isNull = true
        · obtain rfl := Literal.eq_null null
          rfl
        · have solid : value.isNull = false := by simpa using null
          rw [Expr.loose_literal solid] at tight
          cases tight
    | param =>
      match below with
      | .one (.param ⟨.anonymous, value⟩) .nil => cases tight
      | .one (.param ⟨.named name, value⟩) .nil => rfl
      | .one (.param ⟨.ordinal index, value⟩) .nil => rfl
    | typeName => rfl
    | plain other =>
      rw [Tree.loose_plain other] at tight
      rw [Tree.edit, Numbering.editor_plain other, Forest.edit_of_loose_nil tight]
      rfl

theorem Forest.edit_of_loose_nil : {slots : List Slot} → {f : Forest slots} → f.loose = [] →
    f.edit Numbering.editor = pure none
  | _, .nil, _ => rfl
  | _, .one t rest, tight => by
    rw [Forest.loose_one, List.append_eq_nil_iff] at tight
    rw [Forest.edit, Tree.edit_of_loose_nil tight.1, Forest.edit_of_loose_nil tight.2]
    rfl
  | _, .absent rest, tight => by
    rw [Forest.edit, Forest.edit_of_loose_nil (f := rest) tight]
    rfl
  | _, .present t rest, tight => by
    rw [Forest.loose_present, List.append_eq_nil_iff] at tight
    rw [Forest.edit, Tree.edit_of_loose_nil tight.1, Forest.edit_of_loose_nil tight.2]
    rfl
  | _, .done rest, tight => by
    rw [Forest.edit, Forest.edit_of_loose_nil (f := rest) tight]
    rfl
  | _, .more t rest, tight => by
    rw [Forest.loose_more, List.append_eq_nil_iff] at tight
    rw [Forest.edit, Tree.edit_of_loose_nil tight.1, Forest.edit_of_loose_nil tight.2]
    rfl
  | _, .noArm rest, tight => by
    rw [Forest.edit, Forest.edit_of_loose_nil (f := rest) tight]
    rfl
  | _, .arm c t rest, tight => by
    rw [Forest.loose_arm, List.append_eq_nil_iff, List.append_eq_nil_iff] at tight
    rw [Forest.edit, Tree.edit_of_loose_nil tight.1, Tree.edit_of_loose_nil tight.2.1,
      Forest.edit_of_loose_nil tight.2.2]
    rfl

end

/-- A tree is kept as it is exactly when it has no loose expressions. -/
theorem Tree.number_eq_none_iff {k : Kind} (t : Tree k) : t.number.tree? = none ↔ t.loose = [] := by
  constructor
  · intro kept
    have same : (t.numbered .start).1 = t := by rw [← t.number_getD, kept, Option.getD_none]
    rw [← same]
    exact t.loose_numbered .start
  · intro tight
    unfold Tree.number
    rw [Tree.edit_of_loose_nil tight]
    rfl

/-- Preparing takes a tree to a normal form. In the prepared tree the literals outside type names are NULL
and the parameters of expressions outside type names are not anonymous. It is the tree with its loose
expressions replaced, the one at place `k` in written order by the parameter of number `k` with the value
that came with it, and with nothing else changed. The tree is kept exactly when nothing is replaced, and
preparing the prepared tree keeps it. -/
theorem Tree.prepare_normal {k : Kind} {t : Tree k} {tree? : Option (Tree k)}
    (few : t.valueCount < UInt32.size) (prepared : t.prepare = .ok tree?) :
    let u := tree?.getD t
    (∀ e ∈ u.exposed, (∀ value, e = Expr.literal value → value = .null) ∧
      ∀ value, e ≠ Expr.param ⟨.anonymous, value⟩) ∧
    (∃ swaps, t.Replaced swaps u ∧ swaps.map Prod.fst = t.loose ∧
      ∀ i swap, swaps[i]? = some swap → ∃ index : UInt32, index.toNat = i + 1 ∧
        swap.2 = Expr.param ⟨.ordinal index, swap.1.carried?⟩) ∧
    (tree? = none ↔ t.loose = []) ∧
    u.prepare = .ok none := by
  intro u
  obtain ⟨rfl, bindable⟩ := Tree.prepare_ok_iff.mp prepared
  have numbered : u = (t.numbered .start).1 := t.number_getD
  have tight : u.loose = [] := numbered ▸ t.loose_numbered .start
  refine ⟨fun e member => ?_, ⟨Numbering.swaps 0 t.loose, ?_, ?_, ?_⟩, t.number_eq_none_iff, ?_⟩
  · have bound := List.filter_eq_nil_iff.mp tight e member
    constructor
    · rintro value rfl
      exact Literal.eq_null (by simpa [Expr.isLoose_literal] using bound)
    · rintro value rfl
      exact bound rfl
  · rw [numbered]
    exact t.replaced_numbered .start
  · exact Numbering.map_fst_swaps 0 t.loose
  · intro i swap here
    have short : (0 : UInt32).toNat + t.loose.length < UInt32.size := by
      have := t.length_loose_le
      simp
      omega
    obtain ⟨index, count, new⟩ := Numbering.getElem?_swaps short here
    exact ⟨index, by simpa using count, new⟩
  · have kept : u.number.tree? = none := u.number_eq_none_iff.mpr tight
    refine Tree.prepare_ok_iff.mpr ⟨kept, ?_⟩
    rw [← u.number_getD, kept, Option.getD_none, numbered]
    exact bindable

/-- Two expressions to replace, and others that stay: NULL, a numbered parameter, and what stands in the
name of a type. -/
def mixedRow : Tree .row :=
  Row.ofList [Expr.literal (.integer 5), Expr.null, Expr.param ⟨.ordinal 7, some (.string "s")⟩,
    Expr.cast (Expr.ofValue (.boolean true))
      (.node (.typeName (.keyword "NUMERIC") 0 .none) (.more (Expr.literal (.integer 9)) (.done .nil)))]

/-- The row with its two values numbered. -/
def mixedRowNumbered : Tree .row :=
  Row.ofList [Expr.param ⟨.ordinal 1, some (.integer 5)⟩, Expr.null, Expr.param ⟨.ordinal 7, some (.string "s")⟩,
    Expr.cast (Expr.param ⟨.ordinal 2, some (.boolean true)⟩)
      (.node (.typeName (.keyword "NUMERIC") 0 .none) (.more (Expr.literal (.integer 9)) (.done .nil)))]

theorem Tree.prepare_normal_mixed :
    mixedRow.valueCount < UInt32.size ∧ mixedRow.prepare = .ok (some mixedRowNumbered) ∧
      mixedRow.loose = [Expr.literal (.integer 5), Expr.ofValue (.boolean true)] ∧
      (∃ swaps, mixedRow.Replaced swaps mixedRowNumbered ∧ swaps.map Prod.fst = mixedRow.loose) ∧
      mixedRowNumbered.prepare = .ok none := by
  have few : mixedRow.valueCount < UInt32.size := by decide
  have prepared : mixedRow.prepare = .ok (some mixedRowNumbered) := by rfl
  obtain ⟨_, ⟨swaps, replaced, listed, _⟩, _, again⟩ := Tree.prepare_normal few prepared
  exact ⟨few, prepared, rfl, ⟨swaps, replaced, listed⟩, again⟩

end SqlTree

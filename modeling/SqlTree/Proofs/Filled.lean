import Mathlib.Data.List.Forall2
import SqlTree.Tree.Check

namespace SqlTree

namespace Forest

@[simp]
theorem contents_ofList {k : Kind} {slots : List Slot} (ts : List (Tree k)) (rest : Forest slots) :
    (ofList ts rest).contents = (ts, rest.contents) := by
  induction ts with
  | nil => rfl
  | cons t ts ih =>
    change (t :: (ofList ts rest).contents.1, (ofList ts rest).contents.2) = _
    rw [ih]

@[simp]
theorem contents_ofOption {k : Kind} {slots : List Slot} (t : Option (Tree k)) (rest : Forest slots) :
    (ofOption t rest).contents = (t, rest.contents) := by
  cases t <;> rfl

@[simp]
theorem contents_ofArms {slots : List Slot} (arms : List (Tree .expr × Tree .expr))
    (rest : Forest slots) : (ofArms arms rest).contents = (arms, rest.contents) := by
  induction arms with
  | nil => rfl
  | cons arm arms ih =>
    change (arm :: (ofArms arms rest).contents.1, (ofArms arms rest).contents.2) = _
    rw [ih]

/-- A forest holds what it was made of. -/
@[simp]
theorem contents_ofContents : (slots : List Slot) → (parts : Fill Tree slots) →
    (ofContents slots parts).contents = parts
  | [], _ => rfl
  | .one _ :: slots, (_, rest) => congrArg (Prod.mk _) (contents_ofContents slots rest)
  | .opt _ :: slots, (t, rest) => by rw [ofContents, contents_ofOption, contents_ofContents slots rest]
  | .many _ :: slots, (ts, rest) => by rw [ofContents, contents_ofList, contents_ofContents slots rest]
  | .arms :: slots, (arms, rest) => by rw [ofContents, contents_ofArms, contents_ofContents slots rest]

end Forest

/-- All that fills slots has a property. -/
def Fill.All {α : Kind → Type} (Q : {k : Kind} → α k → Prop) : (slots : List Slot) → Fill α slots → Prop
  | [], _ => True
  | .one _ :: slots, (a, as) => Q a ∧ All Q slots as
  | .opt _ :: slots, (a, as) => (∀ x ∈ a, Q x) ∧ All Q slots as
  | .many _ :: slots, (a, as) => (∀ x ∈ a, Q x) ∧ All Q slots as
  | .arms :: slots, (a, as) => (∀ arm ∈ a, Q arm.1 ∧ Q arm.2) ∧ All Q slots as

theorem Fill.All.imp {α : Kind → Type} {P Q : {k : Kind} → α k → Prop}
    (each : ∀ {k : Kind} {a : α k}, P a → Q a) : {slots : List Slot} → {parts : Fill α slots} →
    Fill.All P slots parts → Fill.All Q slots parts
  | [], _, _ => trivial
  | .one _ :: _, (_, _), all => ⟨each all.1, imp each all.2⟩
  | .opt _ :: _, (_, _), all => ⟨fun x member => each (all.1 x member), imp each all.2⟩
  | .many _ :: _, (_, _), all => ⟨fun x member => each (all.1 x member), imp each all.2⟩
  | .arms :: _, (_, _), all =>
    ⟨fun arm member => ⟨each (all.1 arm member).1, each (all.1 arm member).2⟩, imp each all.2⟩

theorem Fill.All.mp {α : Kind → Type} {P Q : {k : Kind} → α k → Prop} : {slots : List Slot} →
    {parts : Fill α slots} → Fill.All (fun a => P a → Q a) slots parts → Fill.All P slots parts →
    Fill.All Q slots parts
  | [], _, _, _ => trivial
  | .one _ :: _, (_, _), each, all => ⟨each.1 all.1, mp each.2 all.2⟩
  | .opt _ :: _, (_, _), each, all => ⟨fun x member => each.1 x member (all.1 x member), mp each.2 all.2⟩
  | .many _ :: _, (_, _), each, all => ⟨fun x member => each.1 x member (all.1 x member), mp each.2 all.2⟩
  | .arms :: _, (_, _), each, all =>
    ⟨fun arm member => ⟨(each.1 arm member).1 (all.1 arm member).1, (each.1 arm member).2 (all.1 arm member).2⟩,
      mp each.2 all.2⟩

theorem Fill.All.congr {α : Kind → Type} {P Q : {k : Kind} → α k → Prop} {slots : List Slot}
    {parts : Fill α slots} (each : Fill.All (fun a => (P a ↔ Q a)) slots parts) :
    Fill.All P slots parts ↔ Fill.All Q slots parts :=
  ⟨(each.imp fun both => both.mp).mp, (each.imp fun both => both.mpr).mp⟩

mutual

/-- What goes over from the nodes below a node to the node itself holds of every tree. -/
theorem Tree.induction_below {Q : {k : Kind} → Tree k → Prop}
    (step : ∀ {k : Kind} (form : Form k) (below : Forest form.slots),
      Fill.All Q form.slots below.contents → Q (.node form below)) : {k : Kind} → (t : Tree k) → Q t
  | _, .node form below => step form below (Forest.induction_below step below)

theorem Forest.induction_below {Q : {k : Kind} → Tree k → Prop}
    (step : ∀ {k : Kind} (form : Form k) (below : Forest form.slots),
      Fill.All Q form.slots below.contents → Q (.node form below)) :
    {slots : List Slot} → (f : Forest slots) → Fill.All Q slots f.contents
  | _, .nil => trivial
  | _, .one t rest => And.intro (Tree.induction_below step t) (Forest.induction_below step rest)
  | _, .absent rest => And.intro (fun _ member => nomatch member) (Forest.induction_below step rest)
  | _, .present t rest => by
    refine And.intro (fun u member => ?_) (Forest.induction_below step rest)
    cases member
    exact Tree.induction_below step t
  | _, .done rest => And.intro (fun _ member => nomatch member) (Forest.induction_below step rest)
  | _, .more t rest =>
    have others := Forest.induction_below step rest
    And.intro (List.forall_mem_cons.mpr ⟨Tree.induction_below step t, others.1⟩) others.2
  | _, .noArm rest => And.intro (fun _ member => nomatch member) (Forest.induction_below step rest)
  | _, .arm c t rest =>
    have others := Forest.induction_below step rest
    have first := And.intro (Tree.induction_below step c) (Tree.induction_below step t)
    And.intro (List.forall_mem_cons.mpr ⟨first, others.1⟩) others.2

end

/-- What fills slots is related place by place. -/
def Fill.Rel {α β : Kind → Type} (Q : {k : Kind} → α k → β k → Prop) :
    (slots : List Slot) → Fill α slots → Fill β slots → Prop
  | [], _, _ => True
  | .one _ :: slots, (a, as), (b, bs) => Q a b ∧ Rel Q slots as bs
  | .opt _ :: slots, (a, as), (b, bs) => Option.Rel Q a b ∧ Rel Q slots as bs
  | .many _ :: slots, (a, as), (b, bs) => List.Forall₂ Q a b ∧ Rel Q slots as bs
  | .arms :: slots, (a, as), (b, bs) =>
    List.Forall₂ (fun x y => Q x.1 y.1 ∧ Q x.2 y.2) a b ∧ Rel Q slots as bs

theorem isSome_of_rel {α β : Type} {Q : α → β → Prop} {x : Option α} {y : Option β}
    (related : Option.Rel Q x y) : x.isSome = y.isSome := by
  cases related <;> rfl

theorem rel_imp {α β : Type} {P Q : α → β → Prop} (each : ∀ {a b}, P a b → Q a b) {x : Option α} {y : Option β}
    (related : Option.Rel P x y) : Option.Rel Q x y := by
  cases related with
  | none => exact .none
  | some h => exact .some (each h)

theorem isEmpty_of_forall₂ {α β : Type} {Q : α → β → Prop} {xs : List α} {ys : List β}
    (related : List.Forall₂ Q xs ys) : xs.isEmpty = ys.isEmpty := by
  cases related <;> rfl

/-- The same places are filled, whatever with. -/
abbrev Fill.SameShape {α β : Kind → Type} (slots : List Slot) (parts : Fill α slots)
    (others : Fill β slots) : Prop :=
  Fill.Rel (fun _ _ => True) slots parts others

namespace Fill

variable {α β : Kind → Type} {f : {k : Kind} → α k → β k}

theorem all_map {Q : {k : Kind} → β k → Prop} : {slots : List Slot} → {parts : Fill α slots} →
    (Fill.All Q slots (Fill.map f slots parts) ↔ Fill.All (fun a => Q (f a)) slots parts)
  | [], _ => Iff.rfl
  | .one _ :: _, (_, _) => and_congr Iff.rfl all_map
  | .opt _ :: _, (_, _) => and_congr (by simp) all_map
  | .many _ :: _, (_, _) => and_congr List.forall_mem_map all_map
  | .arms :: _, (_, _) => and_congr List.forall_mem_map all_map

/-- Two images of the same parts are related place by place when the two images of each part are. -/
theorem rel_map {γ : Kind → Type} {g : {k : Kind} → α k → γ k} {R : {k : Kind} → β k → γ k → Prop} :
    {slots : List Slot} → {parts : Fill α slots} → Fill.All (fun a => R (f a) (g a)) slots parts →
    Fill.Rel R slots (Fill.map f slots parts) (Fill.map g slots parts)
  | [], _, _ => trivial
  | .one _ :: _, (_, _), all => ⟨all.1, rel_map all.2⟩
  | .opt _ :: _, (none, _), all => ⟨.none, rel_map all.2⟩
  | .opt _ :: _, (some a, _), all => ⟨.some (all.1 a rfl), rel_map all.2⟩
  | .many _ :: _, (_, _), all =>
    ⟨List.forall₂_map_left_iff.mpr (List.forall₂_map_right_iff.mpr (List.forall₂_same.mpr all.1)),
      rel_map all.2⟩
  | .arms :: _, (_, _), all =>
    ⟨List.forall₂_map_left_iff.mpr (List.forall₂_map_right_iff.mpr (List.forall₂_same.mpr all.1)),
      rel_map all.2⟩

theorem map_sameShape : (slots : List Slot) → (parts : Fill α slots) →
    SameShape slots (Fill.map f slots parts) parts
  | [], _ => trivial
  | .one _ :: slots, (_, rest) => ⟨trivial, map_sameShape slots rest⟩
  | .opt _ :: slots, (none, rest) => ⟨.none, map_sameShape slots rest⟩
  | .opt _ :: slots, (some _, rest) => ⟨.some trivial, map_sameShape slots rest⟩
  | .many _ :: slots, (_, rest) =>
    ⟨List.forall₂_map_left_iff.mpr (List.forall₂_same.mpr fun _ _ => trivial), map_sameShape slots rest⟩
  | .arms :: slots, (_, rest) =>
    ⟨List.forall₂_map_left_iff.mpr (List.forall₂_same.mpr fun _ _ => ⟨trivial, trivial⟩),
      map_sameShape slots rest⟩

theorem map_leftInverse {g : {k : Kind} → β k → α k} (inverse : ∀ {k : Kind} (a : α k), g (f a) = a) :
    (slots : List Slot) → (parts : Fill α slots) → Fill.map g slots (Fill.map f slots parts) = parts
  | [], _ => rfl
  | .one _ :: slots, (a, rest) => Prod.ext (inverse a) (map_leftInverse inverse slots rest)
  | .opt _ :: slots, (a, rest) => Prod.ext (by cases a <;> simp [Fill.map, inverse])
    (map_leftInverse inverse slots rest)
  | .many _ :: slots, (as, rest) => Prod.ext (by simp [Fill.map, Function.comp_def, inverse])
    (map_leftInverse inverse slots rest)
  | .arms :: slots, (as, rest) => Prod.ext (by simp [Fill.map, Function.comp_def, inverse])
    (map_leftInverse inverse slots rest)

end Fill

/-- Whether a form may have the contents depends on their shape only. -/
theorem Form.check_eq_of_shape {α β : Kind → Type} {k : Kind} (form : Form k)
    {parts : Fill α form.slots} {others : Fill β form.slots}
    (same : Fill.SameShape form.slots parts others) : form.check parts = form.check others := by
  have decided : ∀ {a b : Bool}, a = b → ∀ cause : Invalid,
      (if a then .error cause else .ok () : Checked Unit) = if b then .error cause else .ok () :=
    fun same cause => by rw [same]
  cases form with
  | case => exact decided (isEmpty_of_forall₂ same.2.1) .noArm
  | rowList => exact decided (isEmpty_of_forall₂ same.1) .noRow
  | composite ops =>
    have counted : ∀ {m n : Nat}, m = n →
        (if m < 2 then .error .fewTerms
          else if ops.length ≠ m - 1 then .error (.operatorCount m ops.length)
          else .ok () : Checked Unit) =
        if n < 2 then .error .fewTerms
          else if ops.length ≠ n - 1 then .error (.operatorCount n ops.length)
          else .ok () :=
      fun same => by rw [same]
    exact counted same.1.length_eq
  | withQuery recursive => exact decided (isEmpty_of_forall₂ same.1) .noCte
  | _ => rfl

theorem Form.composite_check_ok {α : Kind → Type} {ops : List SetOperator}
    {parts : Fill α (Form.composite ops).slots} (several : 2 ≤ parts.1.length)
    (paired : ops.length = parts.1.length - 1) : (Form.composite ops).check parts = .ok () :=
  (if_neg (by omega)).trans (if_neg (by omega))

/-- A set operation has at least two terms, and an operator between any two neighbours. -/
theorem Form.composite_paired {α : Kind → Type} {ops : List SetOperator}
    {parts : Fill α (Form.composite ops).slots} (checked : (Form.composite ops).check parts = .ok ()) :
    2 ≤ parts.1.length ∧ ops.length = parts.1.length - 1 := by
  change (if parts.1.length < 2 then .error .fewTerms
    else if ops.length ≠ parts.1.length - 1 then .error (.operatorCount parts.1.length ops.length)
    else .ok () : Checked Unit) = .ok () at checked
  split at checked
  · cases checked
  · split at checked
    · cases checked
    · omega

end SqlTree

import Mathlib.Data.List.Induction

/-!
Reading operands, signs and parentheses by binding strength. Signs that lead an operand bind tightest; of
two signs that join operands the stronger one binds tighter, and those of one strength group to the left.
A grammar says what a list of items may be read as; the reader keeps a stack and finds the only such
reading.
-/
namespace SqlTree

inductive Item (α σ : Type) where
  | operand (a : α)
  | sign (s : σ)
  | opening
  | closing
  deriving DecidableEq, Repr

inductive Reading (α σ : Type) where
  | operand (a : α)
  | lead (s : σ) (t : Reading α σ)
  | join (s : σ) (l r : Reading α σ)
  deriving DecidableEq, Repr

/-- Values for operands and signs. -/
structure Reading.Meaning (α σ β : Type) where
  operand : α → β
  lead : σ → β → β
  join : σ → β → β → β

def Reading.value {α σ β : Type} (m : Meaning α σ β) : Reading α σ → β
  | .operand a => m.operand a
  | .lead s t => m.lead s (t.value m)
  | .join s l r => m.join s (l.value m) (r.value m)

/-- Which signs lead an operand, and how strong each sign joins two. A sign of no strength joins none. -/
structure Precedence (σ : Type) where
  leads : σ → Bool
  strength : σ → Nat

/-- What waits for an operand: an open parenthesis, a leading sign, or an operand and the sign behind it. -/
inductive Waiting (α σ : Type) where
  | opening
  | sign (s : σ)
  | left (l : Reading α σ) (s : σ)

namespace Precedence

variable {α σ : Type} (p : Precedence σ)

/-- Hands an operand to all on the stack that binds at least as tight as a strength. -/
def settle (n : Nat) : List (Waiting α σ) → Reading α σ → List (Waiting α σ) × Reading α σ
  | .sign s :: stack, t => settle n stack (.lead s t)
  | .left l s :: stack, t => if n ≤ p.strength s then settle n stack (.join s l t) else (.left l s :: stack, t)
  | .opening :: stack, t => (.opening :: stack, t)
  | [], t => ([], t)

/-- Reads items with a stack of what waits, right behind an operand or in want of one. -/
def readFrom (stack : List (Waiting α σ)) : Option (Reading α σ) → List (Item α σ) → Option (Reading α σ)
  | none, .operand a :: items => readFrom stack (some (.operand a)) items
  | none, .sign s :: items => if p.leads s then readFrom (.sign s :: stack) none items else none
  | none, .opening :: items => readFrom (.opening :: stack) none items
  | some t, .sign s :: items =>
    if 0 < p.strength s then
      let (stack, l) := p.settle (p.strength s) stack t
      readFrom (.left l s :: stack) none items
    else none
  | some t, .closing :: items =>
    match p.settle 0 stack t with
    | (.opening :: stack, t) => readFrom stack (some t) items
    | _ => none
  | some t, [] =>
    match p.settle 0 stack t with
    | ([], t) => some t
    | _ => none
  | _, _ => none

def read (items : List (Item α σ)) : Option (Reading α σ) :=
  p.readFrom [] none items

end Precedence

/-- Items in parentheses. -/
def Item.wrap {α σ : Type} (items : List (Item α σ)) : List (Item α σ) :=
  .opening :: items ++ [.closing]

/-- Items, in parentheses or as they are. -/
def Item.enclosed {α σ : Type} (wrapped : Bool) (items : List (Item α σ)) : List (Item α σ) :=
  if wrapped then Item.wrap items else items

/-- Operands with a sign before each but the first. -/
def Item.alternating {α σ : Type} (first : α) (rest : List (σ × α)) : List (Item α σ) :=
  .operand first :: rest.flatMap fun pair => [.sign pair.1, .operand pair.2]

theorem Item.alternating_snoc {α σ : Type} (first : α) (rest : List (σ × α)) (last : σ × α) :
    Item.alternating first (rest ++ [last]) = Item.alternating first rest ++ [.sign last.1, .operand last.2] := by
  simp [Item.alternating]

/-- The grammar. Outside parentheses, no sign but the exposed ones joins two operands. -/
inductive Precedence.Reads {α σ : Type} (p : Precedence σ) :
    (σ → Prop) → List (Item α σ) → Reading α σ → Prop
  | operand {exposed : σ → Prop} (a : α) : Reads p exposed [.operand a] (.operand a)
  | lead {exposed : σ → Prop} {s : σ} {items : List (Item α σ)} {t : Reading α σ} (leads : p.leads s = true)
      (tight : Reads p (fun _ => False) items t) : Reads p exposed (.sign s :: items) (.lead s t)
  | wrap {exposed inner : σ → Prop} {items : List (Item α σ)} {t : Reading α σ}
      (inside : Reads p inner items t) : Reads p exposed (Item.wrap items) t
  | join {exposed : σ → Prop} {s : σ} {left right : List (Item α σ)} {l r : Reading α σ}
      (joins : 0 < p.strength s) (shown : exposed s)
      (before : Reads p (fun b => exposed b ∧ p.strength s ≤ p.strength b) left l)
      (after : Reads p (fun b => exposed b ∧ p.strength s < p.strength b) right r) :
      Reads p exposed (left ++ .sign s :: right) (.join s l r)

namespace Precedence

variable {α σ : Type} {p : Precedence σ} {exposed : σ → Prop} {items rest left right : List (Item α σ)}
  {l r t : Reading α σ} {stack : List (Waiting α σ)}

/-- More signs may be exposed. -/
theorem Reads.mono (reads : p.Reads exposed items t) {wider : σ → Prop} (weaker : ∀ s, exposed s → wider s) :
    p.Reads wider items t := by
  induction reads generalizing wider with
  | operand a => exact .operand a
  | lead leads tight _ => exact .lead leads tight
  | wrap inside _ => exact .wrap inside
  | join joins shown _ _ before after =>
    exact .join joins (weaker _ shown) (before fun b h => ⟨weaker b h.1, h.2⟩)
      (after fun b h => ⟨weaker b h.1, h.2⟩)

/-- Parentheses hide all signs. -/
theorem Reads.enclosed (reads : p.Reads exposed items t) (wrapped : Bool) :
    p.Reads (fun b => wrapped = false ∧ exposed b) (Item.enclosed wrapped items) t := by
  cases wrapped with
  | true => exact .wrap reads
  | false => exact reads.mono fun b shown => ⟨rfl, shown⟩

/-- What is on top of the stack waits until the exposed signs have got their operands. -/
def Yields (p : Precedence σ) (exposed : σ → Prop) (stack : List (Waiting α σ)) : Prop :=
  match stack with
  | .sign _ :: _ => ∀ b, ¬exposed b
  | .left _ s :: _ => ∀ b, exposed b → p.strength s < p.strength b
  | _ => True

/-- A sign that comes next does not bind tighter than the exposed ones. -/
def Stops (p : Precedence σ) (exposed : σ → Prop) (items : List (Item α σ)) : Prop :=
  ∀ s, items.head? = some (.sign s) → ∀ b, exposed b → p.strength s ≤ p.strength b

theorem Yields.mono (yields : p.Yields exposed stack) {fewer : σ → Prop} (weaker : ∀ s, fewer s → exposed s) :
    p.Yields fewer stack := by
  match stack, yields with
  | [], _ | .opening :: _, _ => trivial
  | .sign _ :: _, yields => exact fun b h => yields b (weaker b h)
  | .left _ _ :: _, yields => exact fun b h => yields b (weaker b h)

theorem Yields.settle (yields : p.Yields exposed stack) {s : σ} (shown : exposed s) :
    p.settle (p.strength s) stack t = (stack, t) := by
  match stack, yields with
  | [], _ | .opening :: _, _ => rfl
  | .sign _ :: _, yields => exact absurd shown (yields s)
  | .left _ _ :: _, yields => exact if_neg (Nat.not_le.mpr (yields s shown))

/-- A leading sign gets the operand that follows it, whatever comes next. -/
theorem readFrom_lead (s : σ) :
    p.readFrom (.sign s :: stack) (some t) rest = p.readFrom stack (some (.lead s t)) rest := by
  match rest with
  | [] | .operand _ :: _ | .opening :: _ | .closing :: _ | .sign _ :: _ => simp only [readFrom, Precedence.settle]

/-- Two operands are joined when no tighter sign comes next. -/
theorem readFrom_join {s : σ} (stops : ∀ b, rest.head? = some (.sign b) → p.strength b ≤ p.strength s) :
    p.readFrom (.left l s :: stack) (some r) rest = p.readFrom stack (some (.join s l r)) rest := by
  match rest, stops with
  | [], _ | .operand _ :: _, _ | .opening :: _, _ | .closing :: _, _ =>
    simp only [readFrom, Precedence.settle, Nat.zero_le, if_true]
  | .sign b :: _, stops => simp only [readFrom, Precedence.settle, stops b rfl, if_true]

/-- The reader gets behind what the grammar reads, with that as its operand. -/
theorem Reads.readFrom (reads : p.Reads exposed items t) (yields : p.Yields exposed stack)
    (stops : p.Stops exposed rest) :
    p.readFrom stack none (items ++ rest) = p.readFrom stack (some t) rest := by
  induction reads generalizing stack rest with
  | operand a => simp only [List.cons_append, List.nil_append, Precedence.readFrom]
  | @lead _ s items t leads _ ih =>
    have tight : p.Yields (fun _ => False) (.sign s :: stack) := fun _ => id
    have inner : p.readFrom (.sign s :: stack) none (items ++ rest) = p.readFrom (.sign s :: stack) (some t) rest :=
      ih tight fun _ _ _ => False.elim
    rw [List.cons_append, Precedence.readFrom, if_pos leads, inner, readFrom_lead]
  | @wrap _ inner items t _ ih =>
    have inside : p.readFrom (.opening :: stack) none (items ++ .closing :: rest) =
      p.readFrom (.opening :: stack) (some t) (.closing :: rest) := ih trivial nofun
    simp only [Item.wrap, List.cons_append, List.append_assoc, List.nil_append, Precedence.readFrom, inside,
      Precedence.settle]
  | @join exposed s left right l r joins shown _ _ before after =>
    have first : p.Yields (fun b => exposed b ∧ p.strength s ≤ p.strength b) stack := yields.mono fun _ => And.left
    have next : p.Stops (fun b => exposed b ∧ p.strength s ≤ p.strength b) (.sign s :: (right ++ rest)) := by
      rintro _ ⟨⟩ b h
      exact h.2
    have second : p.Yields (fun b => exposed b ∧ p.strength s < p.strength b) (.left l s :: stack) :=
      fun b h => h.2
    rw [List.append_assoc, List.cons_append, before first next]
    simp only [Precedence.readFrom, joins, if_true, yields.settle shown]
    rw [after second fun b ahead c h => stops b ahead c h.1, readFrom_join fun b ahead => stops b ahead s shown]

/-- What the grammar reads, the reader finds. -/
theorem Reads.read (reads : p.Reads exposed items t) : p.read items = some t := by
  have arrives : p.readFrom [] none (items ++ []) = p.readFrom [] (some t) [] := reads.readFrom trivial nofun
  rw [List.append_nil] at arrives
  simp only [Precedence.read, arrives, Precedence.readFrom, Precedence.settle]

/-- The grammar is unambiguous. -/
theorem Reads.unique {others : σ → Prop} {u : Reading α σ} (reads : p.Reads exposed items t)
    (again : p.Reads others items u) : t = u :=
  Option.some.inj (reads.read.symm.trans again.read)

/-- A right operand whose exposed signs are not weaker than the sign before it is taken apart by that sign.
The value is the one of the operand as a whole if every exposed sign of the same strength may change places
with the sign. -/
theorem Reads.regroup {s : σ} {inner : σ → Prop} (joins : 0 < p.strength s)
    (before : p.Reads (fun b => exposed b ∧ p.strength s ≤ p.strength b) left l) (after : p.Reads inner right r)
    (shown : exposed s) (wider : ∀ b, inner b → exposed b)
    (stronger : ∀ b, inner b → p.strength s ≤ p.strength b) :
    ∃ t, p.Reads exposed (left ++ .sign s :: right) t ∧
      ∀ {β : Type} (m : Reading.Meaning α σ β),
        (∀ b, inner b → p.strength b = p.strength s →
          ∀ x y z, m.join s x (m.join b y z) = m.join b (m.join s x y) z) →
        t.value m = m.join s (l.value m) (r.value m) := by
  induction after generalizing exposed with
  | operand a => exact ⟨_, .join joins shown before (.operand a), fun _ _ => rfl⟩
  | lead leads tight _ => exact ⟨_, .join joins shown before (.lead leads tight), fun _ _ => rfl⟩
  | wrap inside _ => exact ⟨_, .join joins shown before (.wrap inside), fun _ _ => rfl⟩
  | @join inner b left' right' l' r' joins' shown' before' after' ih _ =>
    obtain same | above := Nat.eq_or_lt_of_le (stronger b shown')
    · -- the two signs group to the left, so the sign before takes the left part only
      have narrow : p.Reads (fun c => (exposed c ∧ p.strength b ≤ p.strength c) ∧ p.strength s ≤ p.strength c)
          left l := before.mono fun c h => ⟨⟨h.1, same ▸ h.2⟩, h.2⟩
      obtain ⟨t, reads, value⟩ := ih narrow ⟨shown, Nat.le_of_eq same.symm⟩ (fun c h => ⟨wider c h.1, h.2⟩)
        fun c h => stronger c h.1
      have outer := Reads.join joins' (wider b shown') reads (after'.mono fun c h => ⟨wider c h.1, h.2⟩)
      rw [List.append_assoc] at outer
      refine ⟨_, outer, fun m law => ?_⟩
      have parts := value m fun c h => law c h.1
      have swap := law b shown' same.symm (l.value m) (l'.value m) (r'.value m)
      rw [Reading.value, Reading.value, parts, swap]
    · have tight : p.Reads (fun c => exposed c ∧ p.strength s < p.strength c) (left' ++ .sign b :: right')
          (.join b l' r') := by
        refine .join joins' ⟨wider b shown', above⟩ (before'.mono fun c h => ?_) (after'.mono fun c h => ?_)
        · exact ⟨⟨wider c h.1, Nat.lt_of_lt_of_le above h.2⟩, h.2⟩
        · exact ⟨⟨wider c h.1, Nat.lt_trans above h.2⟩, h.2⟩
      exact ⟨_, .join joins shown before tight, fun _ _ => rfl⟩

/-- One more operand takes from what is read before it as much as its sign is stronger than. -/
theorem Reads.snoc {s : σ} (reads : p.Reads exposed items t) (joins : 0 < p.strength s) (a : α) :
    ∃ u, p.Reads (fun b => exposed b ∨ b = s) (items ++ [.sign s, .operand a]) u := by
  induction reads with
  | operand b => exact ⟨_, .join joins (.inr rfl) (.operand b) (.operand a)⟩
  | lead leads tight _ => exact ⟨_, .join joins (.inr rfl) (.lead leads tight) (.operand a)⟩
  | wrap inside _ => exact ⟨_, .join joins (.inr rfl) (.wrap inside) (.operand a)⟩
  | @join exposed b left right l r joins' shown before after _ ih =>
    by_cases tighter : p.strength b < p.strength s
    · obtain ⟨u, reads⟩ := ih
      have last := reads.mono fun c (h : (exposed c ∧ p.strength b < p.strength c) ∨ c = s) =>
        show (exposed c ∨ c = s) ∧ p.strength b < p.strength c from
          h.elim (fun h => ⟨.inl h.1, h.2⟩) fun h => ⟨.inr h, h ▸ tighter⟩
      have outer := Reads.join joins' (.inl shown) (before.mono fun c h => ⟨.inl h.1, h.2⟩) last
      rw [List.append_assoc, List.cons_append]
      exact ⟨_, outer⟩
    · have weaker := Nat.not_lt.mp tighter
      have whole : p.Reads (fun c => (exposed c ∨ c = s) ∧ p.strength s ≤ p.strength c) (left ++ .sign b :: right)
          (.join b l r) := by
        refine .join joins' ⟨.inl shown, weaker⟩ (before.mono fun c h => ?_) (after.mono fun c h => ?_)
        · exact ⟨⟨.inl h.1, Nat.le_trans weaker h.2⟩, h.2⟩
        · exact ⟨⟨.inl h.1, Nat.le_trans weaker (Nat.le_of_lt h.2)⟩, h.2⟩
      exact ⟨_, .join joins (.inr rfl) whole (.operand a)⟩

/-- Operands with a sign between any two neighbours are read. -/
theorem alternating_reads (joins : ∀ s, 0 < p.strength s) (first : α) (rest : List (σ × α)) :
    ∃ t, p.Reads (· ∈ rest.map Prod.fst) (Item.alternating first rest) t := by
  induction rest using List.reverseRecOn with
  | nil => exact ⟨_, .operand first⟩
  | append_singleton rest last ih =>
    obtain ⟨t, reads⟩ := ih
    obtain ⟨u, longer⟩ := reads.snoc (joins last.1) last.2
    rw [Item.alternating_snoc]
    exact ⟨u, longer.mono fun b h => by simpa [or_comm] using h⟩

end Precedence

end SqlTree

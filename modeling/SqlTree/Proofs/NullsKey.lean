import SqlTree.Build.Condition
import SqlTree.Build.Query
import SqlTree.Proofs.BoundOrder
import SqlTree.Proofs.InlineText
import SqlTree.Proofs.LexedText

namespace SqlTree

/-- The number that a null is sorted by. -/
def Nulls.key : Nulls → Int64
  | .first => 0
  | .last => 1

/-- What stands behind the sort expression in a test for null. -/
def Nulls.branches : Nulls → String
  | .first => " IS NULL THEN 0 ELSE 1 END"
  | .last => " IS NULL THEN 1 ELSE 0 END"

/-- A CASE that gives the key of a null for a null and the other key for anything else. -/
def Case.nullTest (n : Nulls) (e : Expr) : Tree .case :=
  .ofContents .case (none, [(Expr.predicate (Predicate.isNull e), Expr.literal (.integer n.key))],
    some (Expr.literal (.integer (1 - n.key))), ())

theorem Case.make_nullTest (n : Nulls) (e : Expr) :
    Case.make none [(Expr.predicate (Predicate.isNull e), Expr.literal (.integer n.key))]
      (some (Expr.literal (.integer (1 - n.key)))) = .ok (Case.nullTest n e) :=
  rfl

/-- The text of an operand of a null test: in parentheses when the operand binds loosely. -/
def Expr.tested (e : Expr) (s : String) : String :=
  if Expr.binding? e = some 0 then "(" ++ s ++ ")" else s

/-- Parentheses make a difference. -/
theorem Expr.tested_eq_iff (e : Expr) (s : String) : e.tested s = s ↔ Expr.binding? e ≠ some 0 := by
  unfold tested
  split
  · rename_i loose
    refine iff_of_false (fun same => ?_) (not_not_intro loose)
    have lengths := congrArg String.length same
    have one : "(".length = 1 := rfl
    simp only [String.length_append] at lengths
    omega
  · rename_i tight
    exact iff_of_true rfl tight

section Texts

variable {dialect : Dialect} {l : Layout}

theorem Doc.inlined_side (e : Expr) (d : Doc) :
    (Render.side ⟨e, d⟩).inlined dialect l = (d.inlined dialect l).map e.tested := by
  unfold Render.side Render.operand Expr.tested
  cases Expr.binding? e with
  | none => cases d.inlined dialect l <;> rfl
  | some strength =>
    simp only [decide_eq_true_eq, Option.some_inj]
    split
    · rw [Doc.parens, Doc.inlined_append, Doc.inlined_append]
      cases d.inlined dialect l <;> rfl
    · cases d.inlined dialect l <;> rfl

theorem Doc.inlined_integer (n : Int64) :
    (dialect.literalDoc (.integer n)).inlined dialect l = .ok (toString n.toInt) :=
  congrArg Except.ok String.empty_append

/-- The key is written with the expression as it is. -/
theorem Doc.inlined_nullsKey (n : Nulls) (e : Expr) (d : Doc) :
    (Render.nullsKey n ⟨e, d⟩).inlined dialect l =
      (d.inlined dialect l).map fun s => "CASE WHEN " ++ s ++ (n.branches ++ ", ") := by
  unfold Render.nullsKey
  rw [Doc.inlined_append, Doc.inlined_append]
  cases d.inlined dialect l with
  | error => rfl
  | ok s => cases n <;> rfl

end Texts

section Keys

variable {dialect : Dialect} (standard : dialect.toStyle.StandardRenderers) (pretty : Bool)

include standard

theorem Case.inlined_nullTest (n : Nulls) (e : Expr) :
    (Case.nullTest n e).inlined dialect pretty =
      (e.inlined dialect pretty).map fun s => "CASE WHEN " ++ e.tested s ++ n.branches := by
  have test : (Expr.predicate (Predicate.isNull e)).doc dialect.toStyle =
      Render.isNull false ⟨e, e.doc dialect.toStyle⟩ :=
    (standard _ _).trans ((standard _ _).trans (standard _ _))
  have number (k : Int64) : (Expr.literal (.integer k)).doc dialect.toStyle =
      dialect.literalDoc (.integer k) := (standard _ _).trans (standard _ _)
  have drawn : (Case.nullTest n e).doc dialect.toStyle =
      Doc.text "CASE" ++ Doc.empty ++
        ((Doc.text " WHEN " ++ (Expr.predicate (Predicate.isNull e)).doc dialect.toStyle ++ Doc.text " THEN " ++
          (Expr.literal (.integer n.key)).doc dialect.toStyle) ++ Doc.empty) ++
        (Doc.text " ELSE " ++ (Expr.literal (.integer (1 - n.key))).doc dialect.toStyle) ++ Doc.text " END" :=
    standard _ _
  rw [Tree.inlined, drawn, test, number, number]
  simp only [Render.isNull, Doc.inlined_append, Doc.inlined_side, Doc.inlined_text, Doc.inlined_integer]
  rw [Tree.inlined]
  cases (e.doc dialect.toStyle).inlined dialect ⟨pretty, 0⟩ with
  | error => rfl
  | ok s =>
    have branches : " IS NULL" ++ (" THEN " ++ (toString n.key.toInt ++ (" ELSE " ++
        (toString (1 - n.key).toInt ++ " END")))) = n.branches := by
      cases n <;> rfl
    have opening : "CASE WHEN " = "CASE" ++ " WHEN " := rfl
    refine congrArg Except.ok ?_
    rw [← branches, opening]
    simp only [String.append_assoc, String.append_empty]
    rfl

/-- Without a notation for the placement of nulls, a placement changes nothing but the key in front. -/
theorem OrderItem.inlined_implicit (implicit : dialect.nulls.explicit = false) (direction : Option Direction) :
    ∃ tail : String, ∀ (nulls : Option Nulls) (e : Expr),
      (OrderItem.make e direction nulls).inlined dialect pretty = (e.inlined dialect pretty).map fun s =>
        match dialect.nulls.emulated direction nulls with
        | some n => "CASE WHEN " ++ s ++ (n.branches ++ ", ") ++ s ++ tail
        | none => s ++ tail := by
  obtain ⟨tail, behind⟩ : ∃ tail,
      (Doc.ofOption direction Render.direction).inlined dialect ⟨pretty, 0⟩ = .ok tail := by
    rcases direction with _ | _ | _ <;> exact ⟨_, rfl⟩
  refine ⟨tail, fun nulls e => ?_⟩
  have drawn : (OrderItem.make e direction nulls).doc dialect.toStyle =
      Render.orderItem dialect.toStyle direction nulls ⟨e, e.doc dialect.toStyle⟩ := standard _ _
  have unsaid : Doc.when dialect.nulls.explicit (Doc.ofOption nulls fun n => Doc.text (" " ++ n.keyword)) =
      .empty := by
    rw [implicit]
    rfl
  rw [Tree.inlined, drawn, Render.orderItem, unsaid, Tree.inlined]
  generalize e.doc dialect.toStyle = d, Doc.ofOption direction Render.direction = directed at behind
  have nothing : Doc.empty.inlined dialect ⟨pretty, 0⟩ = .ok "" := rfl
  cases dialect.nulls.emulated direction nulls with
  | none =>
    change (Doc.empty ++ d ++ directed ++ Doc.empty).inlined dialect ⟨pretty, 0⟩ = _
    simp only [Doc.inlined_append, behind, nothing]
    cases d.inlined dialect ⟨pretty, 0⟩ with
    | error => rfl
    | ok s =>
      change Except.ok ("" ++ s ++ tail ++ "") = Except.ok (s ++ tail)
      rw [String.empty_append, String.append_empty]
  | some n =>
    change (Render.nullsKey n ⟨e, d⟩ ++ d ++ directed ++ Doc.empty).inlined dialect ⟨pretty, 0⟩ = _
    simp only [Doc.inlined_append, Doc.inlined_nullsKey, behind, nothing]
    cases d.inlined dialect ⟨pretty, 0⟩ with
    | error => rfl
    | ok s => exact congrArg Except.ok String.append_empty

/-- Where a placement cannot be written and is not the default, an item is written as a key and the item without a
placement. The key is the text of the CASE that tests the expression for null, unless the expression binds loosely:
then the CASE has it in parentheses and the key does not. -/
theorem OrderItem.render_emulated {options : RenderOptions} (inline : options.mode = .inline)
    (implicit : dialect.nulls.explicit = false) {direction : Option Direction} {n : Nulls}
    (moved : n ≠ dialect.nulls.defaultFor (direction.getD .asc)) (e : Expr) :
    let item := ((OrderItem.make e direction (some n)).render dialect options).result
    let plain := ((OrderItem.make e direction none).render dialect options).result
    let test := ((Case.nullTest n e).render dialect options).result
    let value := (e.render dialect options).result
    (item = do
      let s ← value
      let t ← plain
      return ⟨"CASE WHEN " ++ s.sql ++ n.branches ++ ", " ++ t.sql, []⟩) ∧
    (test = do
      let s ← value
      return ⟨"CASE WHEN " ++ e.tested s.sql ++ n.branches, []⟩) ∧
    ((item = do
      let s ← test
      let t ← plain
      return ⟨s.sql ++ ", " ++ t.sql, []⟩) ↔ (Expr.binding? e = some 0 → ∃ error, value = .error error)) := by
  have emulated : dialect.nulls.emulated direction (some n) = some n := by
    simp [NullSorting.emulated, implicit, moved]
  have plain : dialect.nulls.emulated direction none = none := rfl
  obtain ⟨tail, written⟩ := OrderItem.inlined_implicit standard options.pretty implicit direction
  simp only [Tree.render_inlined _ _ inline, written, emulated, plain, Case.inlined_nullTest standard]
  cases e.inlined dialect options.pretty with
  | error error => exact ⟨rfl, rfl, iff_of_true rfl fun _ => ⟨error, rfl⟩⟩
  | ok s =>
    let rendered (text : String) : Except Error SqlText := .ok ⟨text, []⟩
    have regrouped : "CASE WHEN " ++ s ++ (n.branches ++ ", ") ++ s ++ tail =
        "CASE WHEN " ++ s ++ n.branches ++ ", " ++ (s ++ tail) := by
      simp only [String.append_assoc]
    refine ⟨congrArg rendered regrouped, rfl, ?_⟩
    change rendered _ = rendered ("CASE WHEN " ++ e.tested s ++ n.branches ++ ", " ++ (s ++ tail)) ↔
      (Expr.binding? e = some 0 → ∃ error, rendered s = .error error)
    have solid : ¬∃ error, rendered s = .error error := by
      rintro ⟨error, stopped⟩
      cases stopped
    beta_reduce
    rw [regrouped, imp_iff_not solid, ← ne_eq, ← e.tested_eq_iff s]
    constructor
    · intro same
      have texts := congrArg SqlText.sql (Except.ok.inj same)
      simpa [rendered, String.append_assoc, eq_comm] using texts
    · intro bare
      rw [bare]

end Keys

/-- `a + 1` -/
def nextNumber : Expr :=
  Expr.arithmetic .add (.column (.ofName "a")) (.literal (.integer 1))

/-- `a OR b` -/
def eitherColumn : Expr :=
  .predicate (Predicate.connective .or (Predicate.ofExpr (.column (.ofName "a")))
    (Predicate.ofExpr (.column (.ofName "b"))))

theorem OrderItem.render_emulated_sum :
    let item := OrderItem.make nextNumber (some .desc) (some .last)
    let plain := OrderItem.make nextNumber (some .desc) none
    let test := Case.nullTest .last nextNumber
    (item.render .implicitNulls .inline).result =
      .ok ⟨"CASE WHEN a + 1 IS NULL THEN 1 ELSE 0 END, a + 1 DESC", []⟩ ∧
    (item.render .implicitNulls .inline).result = (do
      let s ← (test.render .implicitNulls .inline).result
      let t ← (plain.render .implicitNulls .inline).result
      return ⟨s.sql ++ ", " ++ t.sql, []⟩) := by
  intro item plain test
  have standard : Dialect.implicitNulls.toStyle.StandardRenderers := fun _ _ => rfl
  have inline : RenderOptions.inline.mode = .inline := rfl
  have moved : Nulls.last ≠ Dialect.implicitNulls.nulls.defaultFor ((some Direction.desc).getD .asc) := by decide
  have tight : Expr.binding? nextNumber ≠ some 0 := by decide
  have agree := (OrderItem.render_emulated standard inline rfl moved nextNumber).2.2
  exact ⟨by rfl, agree.mpr fun loose => absurd loose tight⟩

/-- The key of `a OR b` tests `b` for null, not `a OR b`. -/
theorem OrderItem.loose_key_bare :
    let item := OrderItem.make eitherColumn none (some .first)
    let plain := OrderItem.make eitherColumn none none
    let test := Case.nullTest .first eitherColumn
    (item.render .implicitNulls .inline).result =
      .ok ⟨"CASE WHEN a OR b IS NULL THEN 0 ELSE 1 END, a OR b", []⟩ ∧
    (test.render .implicitNulls .inline).result = .ok ⟨"CASE WHEN (a OR b) IS NULL THEN 0 ELSE 1 END", []⟩ ∧
    (plain.render .implicitNulls .inline).result = .ok ⟨"a OR b", []⟩ :=
  ⟨by rfl, by rfl, by rfl⟩

end SqlTree

import Mathlib.Data.List.Forall2
import SqlTree.Proofs.Renumbered

namespace SqlTree

/-- What a bound value comes from: a literal, or a parameter of the caller. -/
inductive Source where
  | literal (value : Literal)
  | param (param : Param)

/-- The literal of a source that is one. -/
def Source.literal? : Source → Option Literal
  | .literal value => some value
  | .param _ => none

def Source.value? : Source → Option Literal
  | .literal value => some value
  | .param p => p.value

/-- The name that the caller gave to a source. -/
def Source.name? : Source → Option String
  | .literal _ => none
  | .param p => p.name?

/-- A parameter that stands for a source: it has the value and the name of it. -/
structure Source.Becomes (s : Source) (p : Param) : Prop where
  value : p.value = s.value?
  name : p.name? = s.name?

/-- Collects what gives bound values, in written order: the literals of expressions other than NULL, and
parameters. The literals of type names are written and not bound. -/
def Visitor.sources : Visitor Id (List Source) where
  unit := []
  combine := (· ++ ·)
  enter := fun {k} t below =>
    match k, t with
    | .expr, Expr.literal value => if value.isNull then [] else [.literal value]
    | .param, .param p => [.param p]
    | .typeName, t => t.params.map .param
    | _, _ => below

/-- Collects the literals of expressions other than NULL outside type names, in written order. -/
def Visitor.freeLiterals : Visitor Id (List Literal) where
  unit := []
  combine := (· ++ ·)
  enter := fun {k} t below =>
    match k, t with
    | .expr, Expr.literal value => if value.isNull then [] else [value]
    | .typeName, _ => []
    | _, _ => below

def Tree.sources {k : Kind} (t : Tree k) : List Source :=
  t.visit Visitor.sources |>.run

def Tree.freeLiterals {k : Kind} (t : Tree k) : List Literal :=
  t.visit Visitor.freeLiterals |>.run

theorem Visitor.sources_lawful : Visitor.sources.Lawful :=
  ⟨List.append_assoc, List.nil_append, List.append_nil⟩

theorem Visitor.freeLiterals_lawful : Visitor.freeLiterals.Lawful :=
  ⟨List.append_assoc, List.nil_append, List.append_nil⟩

theorem Visitor.sources_enter {k : Kind} {form : Form k} (other : form.isNumbered = false)
    (inner : k ≠ .param) (below : Forest form.slots) (result : Id (List Source)) :
    Visitor.sources.enter (.node form below) result = result := by
  cases form with
  | expr variant => cases variant <;> first | rfl | cases other
  | typeName => cases other
  | param => exact absurd rfl inner
  | _ => rfl

theorem Visitor.freeLiterals_enter {k : Kind} {form : Form k} (other : form.isNumbered = false)
    (below : Forest form.slots) (result : Id (List Literal)) :
    Visitor.freeLiterals.enter (.node form below) result = result := by
  cases form with
  | expr variant => cases variant <;> first | rfl | cases other
  | typeName => cases other
  | _ => rfl

theorem Source.becomes_self (p : Param) : (Source.param p).Becomes p :=
  ⟨rfl, rfl⟩

theorem Source.becomes_params (ps : List Param) : List.Forall₂ Source.Becomes (ps.map .param) ps := by
  induction ps with
  | nil => exact .nil
  | cons p _ ih => exact .cons (Source.becomes_self p) ih

/-- A literal becomes a parameter, unless it is NULL. -/
theorem Numbering.literal_becomes (value : Literal) (n : Numbering) :
    List.Forall₂ Source.Becomes (Expr.literal value).sources
      ((Expr.literal value).numbered n).1.params := by
  by_cases null : value.isNull = true
  · obtain rfl := Literal.eq_null null
    exact .nil
  · have solid : value.isNull = false := by simpa using null
    have sources : (Expr.literal value).sources = [.literal value] := by
      change (if value.isNull then [] else [Source.literal value]) = _
      rw [solid]
      rfl
    rw [sources, Numbering.numbered_literal n solid]
    exact .cons ⟨rfl, rfl⟩ .nil

theorem Numbering.param_becomes (p : Param) (n : Numbering) :
    List.Forall₂ Source.Becomes (Expr.param p).sources ((Expr.param p).numbered n).1.params := by
  obtain ⟨kind, value⟩ := p
  cases kind with
  | anonymous => exact .cons ⟨rfl, rfl⟩ .nil
  | named name => exact .cons ⟨rfl, rfl⟩ .nil
  | ordinal index => exact .cons ⟨rfl, rfl⟩ .nil

/-- The parameters of the numbered tree stand for the sources of the tree, one for one and in order. -/
theorem Tree.sources_numbered {k : Kind} (t : Tree k) (n : Numbering) :
    List.Forall₂ Source.Becomes t.sources (t.numbered n).1.params := by
  have across : Visitor.sources.Across Visitor.collected fun _ _ ss ps => List.Forall₂ Source.Becomes ss ps :=
    { before := Visitor.sources_lawful
      after := Visitor.collected_lawful
      unit := fun _ => .nil
      combine := fun left right => List.rel_append left right
      literal := Numbering.literal_becomes
      param := Numbering.param_becomes
      typeName := fun t _ => by
        cases t
        exact Source.becomes_params _
      plain := fun {k form} other below below' _ _ inside => by
        by_cases leaf : k = .param
        · subst leaf
          cases form with
          | param p =>
            cases below
            cases below'
            exact .cons (Source.becomes_self p) .nil
        · rw [Visitor.sources_enter other leaf, Visitor.params_enter _ _ _ _ _ leaf]
          exact inside }
  exact across.visit t n

/-- The literals among the sources of a tree are the literals that are bound, in order. -/
theorem Tree.literals_sources {k : Kind} (t : Tree k) :
    t.sources.filterMap Source.literal? = t.freeLiterals := by
  have joins : Visitor.sources.Joins Visitor.freeLiterals fun ss values =>
      ss.filterMap Source.literal? = values :=
    { left := Visitor.sources_lawful
      right := Visitor.freeLiterals_lawful
      unit := rfl
      combine := fun left right => List.filterMap_append.trans (congrArg₂ (· ++ ·) left right)
      enter := fun {k} form below inside => by
        cases form.numbered with
        | literal =>
          match below with
          | .one (.literal value) .nil =>
            change (if value.isNull then [] else [Source.literal value]).filterMap Source.literal? =
              if value.isNull then [] else [value]
            split <;> rfl
        | param => exact inside
        | typeName base dims zone =>
          have none : ∀ ps : List Param, (ps.map Source.param).filterMap Source.literal? = [] := by
            intro ps
            simp [List.filterMap_map, Function.comp_def, Source.literal?]
          exact none _
        | plain other =>
          by_cases leaf : k = .param
          · subst leaf
            cases form
            cases below
            rfl
          · rw [Visitor.sources_enter other leaf, Visitor.freeLiterals_enter other]
            exact inside }
  exact joins.visit t

end SqlTree

import Mathlib.Data.List.Forall2
import Tapestry.Proofs.Equivalence

/-!
# Equivalence is the least congruence that ignores groups

A relation on trees ignores groups when it holds between a group and what is in it, and it is a
congruence when it is an equivalence that every constructor keeps. Equality without groups is such a
relation. It is also the least one: a tree leads to the one without its groups by taking away one
group after the other, at any depth, and a congruence cannot tell these steps apart.

## Key results

- `isGroupCongruence_equivalent`: equivalence is a congruence that ignores groups
- `IsGroupCongruence.of_withoutGroups`: and any other one holds where it does
- `equivalent_leastCongruence`: what equivalence is, and that it is the least such congruence
-/

namespace Tapestry

/-- Two relations, on expressions and on arguments, that are equivalences, that every constructor
    keeps, and that hold between a group and what is in it. -/
structure IsGroupCongruence (E : Expr → Expr → Prop) (A : Arg → Arg → Prop) : Prop where
  expr : Equivalence E
  arg : Equivalence A
  command {as bs} (name : String) (h : List.Forall₂ A as bs) :
    E (.command name as) (.command name bs)
  pipeline {es fs} (h : List.Forall₂ E es fs) : E (.pipeline es) (.pipeline fs)
  binary {l l' r r'} (symbol : String) (hl : E l l') (hr : E r r') :
    E (.binary l symbol r) (.binary l' symbol r')
  group {e f} (h : E e f) : E (.group e) (.group f)
  keyed {a b} (key : String) (h : A a b) : A (.keyed key a) (.keyed key b)
  nested {e f} (h : E e f) : A (.nested e) (.nested f)
  ungroup (e : Expr) : E (.group e) e

/-! ## Equivalence -/

/-- Expressions that are equivalent member by member are equivalent as a list. -/
private theorem Expr.listEquivalent_of_forall₂ {es fs : List Expr}
    (h : List.Forall₂ (fun e f => e.equivalent f = true) es fs) :
    Expr.listEquivalent es fs = true := by
  induction h with
  | nil => rw [Expr.listEquivalent]
  | cons he _ ih => rw [Expr.listEquivalent, he, ih, Bool.and_self]

/-- Arguments that are equivalent member by member are equivalent as a list. -/
private theorem Arg.listEquivalent_of_forall₂ {as bs : List Arg}
    (h : List.Forall₂ (fun a b => a.equivalent b = true) as bs) :
    Arg.listEquivalent as bs = true := by
  induction h with
  | nil => rw [Arg.listEquivalent]
  | cons ha _ ih => rw [Arg.listEquivalent, ha, ih, Bool.and_self]

/-- What is decided by being equal after some change is an equivalence. -/
private theorem equivalence_of_iff {α β : Type} {R : α → α → Prop} {f : α → β}
    (h : ∀ a b, R a b ↔ f a = f b) : Equivalence R where
  refl a := (h a a).2 rfl
  symm hab := (h _ _).2 ((h _ _).1 hab).symm
  trans hab hbc := (h _ _).2 (((h _ _).1 hab).trans ((h _ _).1 hbc))

/-- Equivalence is a congruence, and it ignores groups. -/
theorem isGroupCongruence_equivalent :
    IsGroupCongruence (fun e f => e.equivalent f = true) (fun a b => a.equivalent b = true) where
  expr := equivalence_of_iff Expr.equivalent_iff
  arg := equivalence_of_iff Arg.equivalent_iff
  -- What is equivalent is the same without groups, so each case compares two trees without groups.
  command name h := by
    have hargs := (Arg.listEquivalent_iff _ _).1 (Arg.listEquivalent_of_forall₂ h)
    rw [Expr.equivalent_iff, Expr.withoutGroups, Expr.withoutGroups, hargs]
  pipeline h := by
    have hstages := (Expr.listEquivalent_iff _ _).1 (Expr.listEquivalent_of_forall₂ h)
    rw [Expr.equivalent_iff, Expr.withoutGroups, Expr.withoutGroups, hstages]
  binary symbol hl hr := by
    rw [Expr.equivalent_iff] at hl hr
    rw [Expr.equivalent_iff, Expr.withoutGroups, Expr.withoutGroups, hl, hr]
  group h := by
    rw [Expr.equivalent_iff] at h
    rw [Expr.equivalent_iff, Expr.withoutGroups, Expr.withoutGroups, h]
  keyed key h := by
    rw [Arg.equivalent_iff] at h
    rw [Arg.equivalent_iff, Arg.withoutGroups, Arg.withoutGroups, h]
  nested h := by
    rw [Expr.equivalent_iff] at h
    rw [Arg.equivalent_iff, Arg.withoutGroups, Arg.withoutGroups, h]
  -- The clause that makes it more than equality: a group is equivalent to what is in it.
  ungroup e := by rw [Expr.equivalent_iff, Expr.withoutGroups]

/-! ## Other congruences -/

namespace IsGroupCongruence

variable {E : Expr → Expr → Prop} {A : Arg → Arg → Prop}

mutual

/-- An expression is congruent to the one without its groups. -/
theorem withoutGroups (h : IsGroupCongruence E A) : ∀ e : Expr, E e e.withoutGroups
  | .command name args => by
    rw [Expr.withoutGroups]
    exact h.command name (h.listArgWithoutGroups args)
  | .pipeline stages => by
    rw [Expr.withoutGroups]
    exact h.pipeline (h.listWithoutGroups stages)
  | .binary l s r => by
    rw [Expr.withoutGroups]
    exact h.binary s (h.withoutGroups l) (h.withoutGroups r)
  | .group e => by
    -- The group itself goes first, and then those in it.
    rw [Expr.withoutGroups]
    exact h.expr.trans (h.ungroup e) (h.withoutGroups e)
  | .literal v => by
    rw [Expr.withoutGroups]
    exact h.expr.refl _

/-- A congruence relates stages to the same stages without groups. -/
theorem listWithoutGroups (h : IsGroupCongruence E A) :
    ∀ es : List Expr, List.Forall₂ E es (Expr.listWithoutGroups es)
  | [] => by
    rw [Expr.listWithoutGroups]
    exact .nil
  | e :: es => by
    rw [Expr.listWithoutGroups]
    exact .cons (h.withoutGroups e) (h.listWithoutGroups es)

/-- An argument is congruent to the one without groups in its expressions. -/
private theorem argWithoutGroups (h : IsGroupCongruence E A) : ∀ a : Arg, A a a.withoutGroups
  | .literal v => by
    rw [Arg.withoutGroups]
    exact h.arg.refl _
  | .keyed key value => by
    rw [Arg.withoutGroups]
    exact h.keyed key (h.argWithoutGroups value)
  | .nested e => by
    rw [Arg.withoutGroups]
    exact h.nested (h.withoutGroups e)

/-- A congruence relates arguments to the same arguments without groups. -/
private theorem listArgWithoutGroups (h : IsGroupCongruence E A) :
    ∀ as : List Arg, List.Forall₂ A as (Arg.listWithoutGroups as)
  | [] => by
    rw [Arg.listWithoutGroups]
    exact .nil
  | a :: as => by
    rw [Arg.listWithoutGroups]
    exact .cons (h.argWithoutGroups a) (h.listArgWithoutGroups as)

end

/-- Expressions that are equal without their groups are congruent. -/
theorem of_withoutGroups (h : IsGroupCongruence E A) {e f : Expr}
    (hef : e.withoutGroups = f.withoutGroups) : E e f := by
  have hf := h.withoutGroups f
  rw [← hef] at hf
  exact h.expr.trans (h.withoutGroups e) (h.expr.symm hf)

/-- And so are arguments. -/
private theorem of_argWithoutGroups (h : IsGroupCongruence E A) {a b : Arg}
    (hab : a.withoutGroups = b.withoutGroups) : A a b := by
  have hb := h.argWithoutGroups b
  rw [← hab] at hb
  exact h.arg.trans (h.argWithoutGroups a) (h.arg.symm hb)

end IsGroupCongruence

/-- The names in a list of expressions depend on the names in its members. -/
private theorem Expr.listCommandNames_of_forall₂ {es fs : List Expr}
    (h : List.Forall₂ (fun e f => e.commandNames = f.commandNames) es fs) :
    Expr.listCommandNames es = Expr.listCommandNames fs := by
  induction h with
  | nil => rfl
  | cons he _ ih => rw [Expr.listCommandNames, Expr.listCommandNames, he, ih]

/-- The names in a list of arguments depend on the names in its members. -/
private theorem Arg.listCommandNames_of_forall₂ {as bs : List Arg}
    (h : List.Forall₂ (fun a b => a.commandNames = b.commandNames) as bs) :
    Arg.listCommandNames as = Arg.listCommandNames bs := by
  induction h with
  | nil => rfl
  | cons ha _ ih => rw [Arg.listCommandNames, Arg.listCommandNames, ha, ih]

/-- Having the same names is a congruence that ignores groups. -/
theorem isGroupCongruence_commandNames :
    IsGroupCongruence (fun e f => e.commandNames = f.commandNames)
      fun a b => a.commandNames = b.commandNames where
  expr := equivalence_of_iff fun _ _ => Iff.rfl
  arg := equivalence_of_iff fun _ _ => Iff.rfl
  command name h := by
    rw [Expr.commandNames, Expr.commandNames, Arg.listCommandNames_of_forall₂ h]
  pipeline h := by
    rw [Expr.commandNames, Expr.commandNames, Expr.listCommandNames_of_forall₂ h]
  binary symbol hl hr := by rw [Expr.commandNames, Expr.commandNames, hl, hr]
  group h := by rw [Expr.commandNames, Expr.commandNames, h]
  keyed key h := by rw [Arg.commandNames, Arg.commandNames, h]
  nested h := by rw [Arg.commandNames, Arg.commandNames, h]
  ungroup e := by rw [Expr.commandNames]

/-- Two trees, well-formed or not, are equivalent exactly when they are equal without their groups,
    and so are two arguments. Hence both relations are equivalences that every constructor keeps,
    and a group is equivalent to what is in it. They hold nowhere else than this makes them hold:
    any other two relations of this kind hold where they do. -/
theorem equivalent_leastCongruence :
    (∀ e f : Expr, e.equivalent f = true ↔ e.withoutGroups = f.withoutGroups) ∧
    (∀ a b : Arg, a.equivalent b = true ↔ a.withoutGroups = b.withoutGroups) ∧
    IsGroupCongruence (fun e f => e.equivalent f = true) (fun a b => a.equivalent b = true) ∧
    ∀ E A, IsGroupCongruence E A →
      (∀ e f : Expr, e.equivalent f = true → E e f) ∧
        ∀ a b : Arg, a.equivalent b = true → A a b := by
  refine ⟨Expr.equivalent_iff, Arg.equivalent_iff, isGroupCongruence_equivalent,
    fun E A h => ⟨fun e f hef => ?_, fun a b hab => ?_⟩⟩
  · exact h.of_withoutGroups ((Expr.equivalent_iff e f).1 hef)
  · exact h.of_argWithoutGroups ((Arg.equivalent_iff a b).1 hab)

/-- Groups around a stage on one side and around an operand in a keyword on the other. -/
theorem equivalent_leastCongruence_keyword :
    let e : Expr := .pipeline [.group (.literal "null"),
      .command "mask" [.keyed "with" (.nested (.binary (.literal "a") "+" (.literal "b")))]]
    let f : Expr := .pipeline [.literal "null",
      .command "mask" [.keyed "with" (.nested (.binary (.literal "a") "+"
        (.group (.group (.literal "b")))))]]
    e.equivalent f = true ∧ e.commandNames = f.commandNames := by
  intro e f
  have hequivalent : e.equivalent f = true := (equivalent_leastCongruence.1 e f).2 rfl
  obtain ⟨hnames, -⟩ := equivalent_leastCongruence.2.2.2 _ _ isGroupCongruence_commandNames
  exact ⟨hequivalent, hnames e f hequivalent⟩

end Tapestry

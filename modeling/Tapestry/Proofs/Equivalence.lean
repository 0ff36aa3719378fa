import Tapestry.Expr

/-!
# Equivalence is equality without groups

`Expr.equivalent` compares two trees and steps over groups on the way. Here the groups are removed
first, from both trees and at every depth, and what is left is compared by equality.

## Key results

- `Expr.equivalent_iff`, `Arg.equivalent_iff`: equivalent trees are those that are equal without
  their groups
-/

namespace Tapestry

mutual

/-- The expression with every group replaced by what is in it. -/
def Expr.withoutGroups : Expr → Expr
  | .command name args => .command name (Arg.listWithoutGroups args)
  | .pipeline stages => .pipeline (Expr.listWithoutGroups stages)
  | .binary l s r => .binary l.withoutGroups s r.withoutGroups
  | .group e => e.withoutGroups
  | .literal v => .literal v

/-- A list of expressions without groups. -/
def Expr.listWithoutGroups : List Expr → List Expr
  | [] => []
  | e :: es => e.withoutGroups :: Expr.listWithoutGroups es

/-- An argument without groups in its expressions. -/
def Arg.withoutGroups : Arg → Arg
  | .literal v => .literal v
  | .keyed key value => .keyed key value.withoutGroups
  | .nested e => .nested e.withoutGroups

/-- A list of arguments without groups in their expressions. -/
def Arg.listWithoutGroups : List Arg → List Arg
  | [] => []
  | a :: as => a.withoutGroups :: Arg.listWithoutGroups as

end

namespace Expr

/-- The groups around an expression are no part of it without groups. -/
private theorem withoutGroups_ungrouped (e : Expr) :
    e.ungrouped.withoutGroups = e.withoutGroups := by
  match e with
  | group e => rw [ungrouped, withoutGroups, withoutGroups_ungrouped e]
  | command _ _ | pipeline _ | binary _ _ _ | literal _ => rfl

/-- Below all parentheses around it an expression is no group. -/
private theorem ungrouped_ne_group (e f : Expr) : e.ungrouped ≠ group f := by
  match e with
  | group e =>
    rw [ungrouped]
    exact ungrouped_ne_group e f
  | command _ _ | pipeline _ | binary _ _ _ | literal _ => exact fun h => nomatch h

end Expr

mutual

/-- Two expressions are equivalent exactly when they are equal without their groups. -/
theorem Expr.equivalent_iff :
    ∀ e f : Expr, e.equivalent f = true ↔ e.withoutGroups = f.withoutGroups
  | .command n as, f => by
    -- The groups around the right side are taken off first, here and in the cases below.
    rw [← Expr.withoutGroups_ungrouped f, Expr.equivalent]
    cases hf : f.ungrouped with
    | command m bs =>
      simp only [Expr.withoutGroups, Bool.and_eq_true, beq_iff_eq, Arg.listEquivalent_iff as bs,
        Expr.command.injEq]
    | group f => exact absurd hf (Expr.ungrouped_ne_group _ f)
    | _ => simp only [Expr.withoutGroups, Bool.false_eq_true, reduceCtorEq]
  | .pipeline es, f => by
    rw [← Expr.withoutGroups_ungrouped f, Expr.equivalent]
    cases hf : f.ungrouped with
    | pipeline fs =>
      simp only [Expr.withoutGroups, Expr.listEquivalent_iff es fs, Expr.pipeline.injEq]
    | group f => exact absurd hf (Expr.ungrouped_ne_group _ f)
    | _ => simp only [Expr.withoutGroups, Bool.false_eq_true, reduceCtorEq]
  | .binary l s r, f => by
    rw [← Expr.withoutGroups_ungrouped f, Expr.equivalent]
    cases hf : f.ungrouped with
    | binary l' s' r' =>
      simp only [Expr.withoutGroups, Bool.and_eq_true, beq_iff_eq, Expr.equivalent_iff l l',
        Expr.equivalent_iff r r', Expr.binary.injEq]
      -- The two sides list the same three conditions in different orders.
      exact ⟨fun ⟨⟨hs, hl⟩, hr⟩ => ⟨hl, hs, hr⟩, fun ⟨hl, hs, hr⟩ => ⟨⟨hs, hl⟩, hr⟩⟩
    | group f => exact absurd hf (Expr.ungrouped_ne_group _ f)
    | _ => simp only [Expr.withoutGroups, Bool.false_eq_true, reduceCtorEq]
  -- A group on the left is taken off as well.
  | .group e, f => by rw [Expr.equivalent, Expr.withoutGroups, Expr.equivalent_iff e f]
  | .literal v, f => by
    rw [← Expr.withoutGroups_ungrouped f, Expr.equivalent]
    cases hf : f.ungrouped with
    | literal w => simp only [Expr.withoutGroups, beq_iff_eq, Expr.literal.injEq]
    | group f => exact absurd hf (Expr.ungrouped_ne_group _ f)
    | _ => simp only [Expr.withoutGroups, Bool.false_eq_true, reduceCtorEq]

/-- Lists of expressions are equivalent when they are the same without groups. -/
theorem Expr.listEquivalent_iff :
    ∀ es fs : List Expr, Expr.listEquivalent es fs = true ↔
      Expr.listWithoutGroups es = Expr.listWithoutGroups fs
  | [], [] => by simp only [Expr.listEquivalent]
  | [], _ :: _ => by
    simp only [Expr.listEquivalent, Expr.listWithoutGroups, Bool.false_eq_true, reduceCtorEq]
  | _ :: _, [] => by
    simp only [Expr.listEquivalent, Expr.listWithoutGroups, Bool.false_eq_true, reduceCtorEq]
  | e :: es, f :: fs => by
    simp only [Expr.listEquivalent, Expr.listWithoutGroups, Bool.and_eq_true,
      Expr.equivalent_iff e f, Expr.listEquivalent_iff es fs, List.cons.injEq]

/-- Two arguments are equivalent exactly when they are equal without their groups. -/
theorem Arg.equivalent_iff :
    ∀ a b : Arg, a.equivalent b = true ↔ a.withoutGroups = b.withoutGroups
  | .literal v, b => by
    cases b <;> simp only [Arg.equivalent, Arg.withoutGroups, beq_iff_eq, Arg.literal.injEq,
      Bool.false_eq_true, reduceCtorEq]
  | .keyed k a, b => by
    -- Arguments have no groups around them, so only one constructor can match.
    cases b with
    | keyed l b =>
      simp only [Arg.equivalent, Arg.withoutGroups, Bool.and_eq_true, beq_iff_eq,
        Arg.equivalent_iff a b, Arg.keyed.injEq]
    | _ => simp only [Arg.equivalent, Arg.withoutGroups, Bool.false_eq_true, reduceCtorEq]
  | .nested e, b => by
    cases b with
    | nested f =>
      simp only [Arg.equivalent, Arg.withoutGroups, Expr.equivalent_iff e f, Arg.nested.injEq]
    | _ => simp only [Arg.equivalent, Arg.withoutGroups, Bool.false_eq_true, reduceCtorEq]

/-- Lists of arguments are equivalent when they are the same without groups. -/
theorem Arg.listEquivalent_iff :
    ∀ as bs : List Arg, Arg.listEquivalent as bs = true ↔
      Arg.listWithoutGroups as = Arg.listWithoutGroups bs
  | [], [] => by simp only [Arg.listEquivalent]
  | [], _ :: _ => by
    simp only [Arg.listEquivalent, Arg.listWithoutGroups, Bool.false_eq_true, reduceCtorEq]
  | _ :: _, [] => by
    simp only [Arg.listEquivalent, Arg.listWithoutGroups, Bool.false_eq_true, reduceCtorEq]
  | a :: as, b :: bs => by
    simp only [Arg.listEquivalent, Arg.listWithoutGroups, Bool.and_eq_true,
      Arg.equivalent_iff a b, Arg.listEquivalent_iff as bs, List.cons.injEq]

end

end Tapestry

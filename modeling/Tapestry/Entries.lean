/-!
# Lists of entries

Registries, tables of handles and directories hold values by key in a list of entries. To bind a key
they put an entry in front and take out those with the same key.

* `lookup_filter_ne`       what taking a key out does to a look-up
* `lookup_cons_filter_ne`  what binding a key does to a look-up
-/

namespace Tapestry

variable {κ α : Type} [BEq κ] [LawfulBEq κ] [DecidableEq κ]

/-- Taking a key out hides it and no other. -/
theorem lookup_filter_ne (entries : List (κ × α)) (key k : κ) :
    (entries.filter (·.1 ≠ key)).lookup k = if k = key then none else entries.lookup k := by
  induction entries with
  | nil => simp
  | cons x entries ih =>
    obtain ⟨l, a⟩ := x
    -- An entry under the key is dropped, and so the entries behind it decide.
    by_cases hl : l = key
    · rw [List.filter_cons_of_neg (by simpa using hl), ih, hl]
      by_cases hk : k = key
      · rw [if_pos hk, if_pos hk]
      · rw [if_neg hk, if_neg hk, List.lookup_cons, beq_false_of_ne hk]
    -- Any other entry stays, and answers for its own key before those behind it.
    · rw [List.filter_cons_of_pos (by simpa using hl), List.lookup_cons, List.lookup_cons, ih]
      by_cases hk : k = l
      · subst hk
        rw [beq_self_eq_true, if_neg hl, if_neg hl]
      · rw [beq_false_of_ne hk]

/-- Binding a key changes what it finds and nothing else. -/
theorem lookup_cons_filter_ne (entries : List (κ × α)) (key : κ) (a : α) (k : κ) :
    ((key, a) :: entries.filter (·.1 ≠ key)).lookup k =
      if k = key then some a else entries.lookup k := by
  rw [List.lookup_cons, lookup_filter_ne]
  by_cases hk : k = key
  · rw [hk, beq_self_eq_true, if_pos rfl, if_pos rfl]
  · rw [beq_false_of_ne hk, if_neg hk, if_neg hk]

end Tapestry

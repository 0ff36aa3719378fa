/-!
# Results of computations

How a computation that is made of others comes to its result: what it returns, or where it fails.
The readers of tokens and of arguments return their results as they are, evaluations and programs
pass a state along.

## Key results

- `Except.bind_eq_ok`, `Except.bind_eq_error`: when two computations one after the other succeed
- `exists_of_bind_ok`, `exists_of_bind_error`: the same of computations with a state
-/

/-! ## Values and errors -/

namespace Except

variable {ε α β γ : Type}

/-- A computation in two steps succeeds when both do. -/
theorem bind_eq_ok {x : Except ε α} {f : α → Except ε β} {b : β} :
    x.bind f = .ok b ↔ ∃ a, x = .ok a ∧ f a = .ok b := by
  cases x with
  | error e => exact ⟨fun h => (nomatch h), fun ⟨_, h, _⟩ => nomatch h⟩
  | ok a => exact ⟨fun h => ⟨a, rfl, h⟩, fun ⟨_, h, h'⟩ => Except.ok.inj h ▸ h'⟩

/-- A computation in two steps fails when one of them does. -/
theorem bind_eq_error {x : Except ε α} {f : α → Except ε β} {error : ε} :
    x.bind f = .error error ↔ x = .error error ∨ ∃ a, x = .ok a ∧ f a = .error error := by
  cases x <;> simp [Except.bind]

/-- What is made of a result is returned when there is a result. -/
theorem map_eq_ok {x : Except ε α} {f : α → β} {b : β} :
    x.map f = .ok b ↔ ∃ a, x = .ok a ∧ f a = b := by
  cases x with
  | error e => exact ⟨fun h => (nomatch h), fun ⟨_, h, _⟩ => nomatch h⟩
  | ok a => exact ⟨fun h => ⟨a, rfl, Except.ok.inj h⟩, fun ⟨_, h, h'⟩ => by cases h; exact h' ▸ rfl⟩

/-- What is made of a result does not change how a computation fails. -/
theorem map_eq_error {x : Except ε α} {f : α → β} {error : ε} :
    x.map f = .error error ↔ x = .error error := by
  cases x <;> simp [Except.map]

/-- What was returned is handed on. -/
theorem ok_bind (a : α) (f : α → Except ε β) : (Except.ok a >>= f) = f a := rfl

/-- A failure ends a computation where it is. -/
theorem error_bind (e : ε) (f : α → Except ε β) : (Except.error e >>= f) = .error e := rfl

/-- A value is returned as it is. -/
theorem pure_eq_ok {a b : α} : (pure a : Except ε α) = .ok b ↔ b = a :=
  ⟨fun h => (Except.ok.inj h).symm, fun h => congrArg _ h.symm⟩

/-- A step that takes what was made of a result can make it itself. -/
theorem map_bind (x : Except ε α) (g : α → β) (f : β → Except ε γ) :
    (x.map g >>= f) = x >>= fun a => f (g a) := by
  cases x with
  | ok a => rfl
  | error e => rfl

/-- Without its error a computation has a result when it returns one. -/
theorem toOption_eq_some {x : Except ε α} {a : α} : x.toOption = some a ↔ x = .ok a := by
  cases x with
  | ok b => exact ⟨fun h => congrArg _ (Option.some.inj h), fun h => congrArg _ (Except.ok.inj h)⟩
  | error e => exact ⟨nofun, nofun⟩

end Except

/-! ## Computations with a state -/

namespace Tapestry

variable {ε σ α β : Type} {m : EStateM ε σ α} {f : α → EStateM ε σ β} {c c' : σ}

/-- A step that returns hands its value and the state on to the next one. -/
theorem bind_ok {a : α} (h : m c = .ok a c') (f : α → EStateM ε σ β) : (m >>= f) c = f a c' := by
  change EStateM.bind m f c = _
  rw [EStateM.bind, h]

/-- A step that fails is the last one. -/
theorem bind_error {e : ε} (h : m c = .error e c') (f : α → EStateM ε σ β) :
    (m >>= f) c = .error e c' := by
  change EStateM.bind m f c = _
  rw [EStateM.bind, h]

/-- Where a computation and what is done with its result go through, each of the two does. -/
theorem exists_of_bind_ok {b : β} (h : (m >>= f) c = .ok b c') :
    ∃ a d, m c = .ok a d ∧ f a d = .ok b c' := by
  cases hm : m c with
  | ok a d => exact ⟨a, d, rfl, (bind_ok hm f).symm.trans h⟩
  | error e d => exact nomatch (bind_error hm f).symm.trans h

/-- Where a computation and what is done with its result fail, one of the two does. -/
theorem exists_of_bind_error {error : ε} (h : (m >>= f) c = .error error c') :
    m c = .error error c' ∨ ∃ a d, m c = .ok a d ∧ f a d = .error error c' := by
  cases hm : m c with
  | ok a d => exact .inr ⟨a, d, rfl, (bind_ok hm f).symm.trans h⟩
  | error e d =>
    cases (bind_error hm f).symm.trans h
    exact .inl rfl

end Tapestry

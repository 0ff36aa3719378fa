import Tapestry.Proofs.Trace

/-!
# The handles of a context

A context starts without handles, and only registering an image changes them. The table then holds
the first handles, as many as its counter says, each with the image that was registered under it
(`HandleTable.Numbered`). Everything else follows: a new handle is none of the table, so no handle
is made twice and none is bound again.

## Key results

- `HandleTable.Numbered.register`: registering an image keeps a table in order
- `Trace.numbered`: so does everything that an evaluation does
- `Trace.lookup_eq`: what a handle is bound to stays
- `handles_after_operations`: the handles after any registrations and evaluations
-/

namespace Tapestry

open Event (bindings)

/-! ## Tables in order -/

/-- The first handles are all different. -/
private theorem nodup_map_handleName (n : Nat) : ((List.range n).map handleName).Nodup :=
  List.Pairwise.map handleName (fun _ _ hne heq => hne (handleName_injective heq)) List.nodup_range

namespace HandleTable

/-- The handles of a table are the first ones, the newest at the front. -/
def Numbered (t : HandleTable) : Prop := t.keys = ((List.range t.counter).map handleName).reverse

/-- Nothing is registered in the empty table, and its counter is zero. -/
private theorem numbered_empty : empty.Numbered := rfl

section Numbered

variable {t : HandleTable} {s : String} {image : Image}

/-- The handles of a table are those with a number below its counter. -/
theorem Numbered.mem_keys (h : t.Numbered) : s ∈ t.keys ↔ ∃ n < t.counter, s = handleName n := by
  rw [h, List.mem_reverse, List.mem_map]
  constructor
  · rintro ⟨n, hn, rfl⟩
    exact ⟨n, List.mem_range.1 hn, rfl⟩
  · rintro ⟨n, hn, rfl⟩
    exact ⟨n, List.mem_range.2 hn, rfl⟩

/-- No handle is there twice, since numbers have different names. -/
theorem Numbered.nodup_keys (h : t.Numbered) : t.keys.Nodup := by
  rw [h, List.Nodup, List.pairwise_reverse]
  exact (nodup_map_handleName t.counter).imp Ne.symm

/-- There are as many handles as the counter says. -/
theorem Numbered.count_eq (h : t.Numbered) : t.count = t.counter := by
  have hlength := congrArg List.length h
  rwa [keys, List.length_map, List.length_reverse, List.length_map, List.length_range] at hlength

/-- The next handle is none of the table. -/
private theorem Numbered.next_not_mem (h : t.Numbered) : handleName t.counter ∉ t.keys := by
  rw [h.mem_keys]
  rintro ⟨n, hn, heq⟩
  exact absurd (handleName_injective heq) (Nat.ne_of_gt hn)

/-- Nothing has to make way for a new handle. -/
private theorem Numbered.entries_register (h : t.Numbered) (image : Image) :
    (t.register image).2.entries = (handleName t.counter, image) :: t.entries := by
  rw [register, insert, List.filter_eq_self.2]
  intro x hx
  -- An entry with the new handle would have it among the handles of the table.
  have hne : x.1 ≠ handleName t.counter := fun heq =>
    h.next_not_mem (heq ▸ List.mem_map_of_mem hx)
  exact decide_eq_true hne

/-- Registering an image takes the next number. -/
theorem Numbered.register (h : t.Numbered) (image : Image) : (t.register image).2.Numbered := by
  have hkeys : (t.register image).2.keys = handleName t.counter :: t.keys := by
    rw [keys, h.entries_register, List.map_cons, keys]
  rw [Numbered, hkeys, h]
  simp [HandleTable.register, List.range_succ]

/-- A text has an image exactly when it is one of the handles. -/
private theorem Numbered.isSome_lookup (h : t.Numbered) : (t.lookup s).isSome ↔ s ∈ t.keys := by
  rw [lookup]
  split
  · rw [List.lookup_isSome_iff, keys, List.mem_map]
    simp
  · next hs =>
    refine ⟨fun h => absurd h Bool.false_ne_true, fun hmem => absurd ?_ hs⟩
    obtain ⟨n, -, rfl⟩ := h.mem_keys.1 hmem
    exact isPrefixOf_handleName n

/-- Registering another image leaves every handle of the table alone. -/
theorem Numbered.lookup_register (h : t.Numbered) (hs : t.lookup s = some image) (new : Image) :
    (t.register new).2.lookup s = some image := by
  have hmem : s ∈ t.keys := h.isSome_lookup.1 (by rw [hs]; rfl)
  rw [HandleTable.lookup_register, if_neg, hs]
  rintro rfl
  exact h.next_not_mem hmem

end Numbered

end HandleTable

/-! ## Tables along a trace -/

section Traces

variable {registry : Registry} {c c' : Context} {event : Event} {events : List Event}

/-- A step puts the handle that it makes in front of those of the table. -/
private theorem Step.entries_eq (h : Step registry c event c') (hc : c.handles.Numbered) :
    c'.handles.entries = event.binding?.toList ++ c.handles.entries := by
  cases h with
  | registered image => exact hc.entries_register image
  | returned | failed | refused => rfl

/-- No step leaves a gap between the numbers. -/
theorem Step.numbered (h : Step registry c event c') (hc : c.handles.Numbered) :
    c'.handles.Numbered := by
  cases h with
  | registered image => exact hc.register image
  | returned | failed | refused => exact hc

/-- A handle that names an image names it after each step. -/
theorem Step.lookup_eq (h : Step registry c event c') (hc : c.handles.Numbered) {s : String}
    {image : Image} (hs : c.handles.lookup s = some image) :
    c'.handles.lookup s = some image := by
  cases h with
  | registered new => exact hc.lookup_register hs new
  | returned | failed | refused => exact hs

/-- The handle that a step makes is bound to its image. -/
private theorem Step.lookup_of_binding (h : Step registry c event c') {s : String} {image : Image}
    (hs : event.binding? = some (s, image)) : c'.handles.lookup s = some image := by
  cases h with
  | registered new =>
    cases hs
    rw [HandleTable.lookup_register, HandleTable.register, if_pos rfl]
  | returned | failed | refused => cases hs

/-- Whatever happens to a context, its table stays in order. -/
theorem Trace.numbered (h : Trace registry c events c') (hc : c.handles.Numbered) :
    c'.handles.Numbered := by
  induction h with
  | nil => exact hc
  | cons h _ ih => exact ih (h.numbered hc)

/-- Whatever happens to a context, a handle stays bound to its image. -/
theorem Trace.lookup_eq (h : Trace registry c events c') (hc : c.handles.Numbered) {s : String}
    {image : Image} (hs : c.handles.lookup s = some image) :
    c'.handles.lookup s = some image := by
  induction h with
  | nil => exact hs
  | cons h _ ih => exact ih (h.numbered hc) (h.lookup_eq hc hs)

/-- Every handle made along the way is bound to its image in the end. -/
theorem Trace.lookup_of_mem_bindings (h : Trace registry c events c') (hc : c.handles.Numbered)
    {s : String} {image : Image} (hs : (s, image) ∈ bindings events) :
    c'.handles.lookup s = some image := by
  induction h with
  | nil => exact nomatch hs
  | cons h h' ih =>
    obtain ⟨event, hmem, hevent⟩ := List.mem_filterMap.1 hs
    -- Either the first step made the handle, which then stays, or a later one did.
    rcases List.mem_cons.1 hmem with rfl | hmem
    · exact h'.lookup_eq (h.numbered hc) (h.lookup_of_binding hevent)
    · exact ih (h.numbered hc) (List.mem_filterMap.2 ⟨event, hmem, hevent⟩)

/-- A trace puts the handles that it makes in front of those of the table, the newest first. -/
theorem Trace.entries_eq (h : Trace registry c events c') (hc : c.handles.Numbered) :
    c'.handles.entries = (bindings events).reverse ++ c.handles.entries := by
  induction h with
  | nil => rfl
  | @cons c c' c'' event events h _ ih =>
    -- Later handles come in front of earlier ones.
    rw [ih (h.numbered hc), h.entries_eq hc, ← List.append_assoc, bindings, bindings,
      List.filterMap_cons]
    cases event.binding? <;> simp

/-- The counter goes up by one for every handle made. -/
theorem Trace.counter_eq (h : Trace registry c events c') (hc : c.handles.Numbered) :
    c'.handles.counter = c.handles.counter + (bindings events).length := by
  have hcount : c'.handles.count = (bindings events).length + c.handles.count := by
    rw [HandleTable.count, h.entries_eq hc, List.length_append, List.length_reverse,
      HandleTable.count]
  rw [(h.numbered hc).count_eq, hc.count_eq] at hcount
  rw [hcount, Nat.add_comm]

end Traces

/-! ## Operations -/

/-- What is done with a context from outside. -/
inductive Operation where
  | register (image : Image)
  | evaluate (e : Expr) (seed : Option Image)

/-- The context that a computation leaves, also when it fails. -/
def contextAfter {α : Type} (m : EvalM α) (c : Context) : Context :=
  match m c with
  | .ok _ c' => c'
  | .error _ c' => c'

/-- What an operation makes of a context. -/
def Operation.perform (registry : Registry) (c : Context) : Operation → Context
  | register image => contextAfter (registerImage image) c
  | evaluate e seed => contextAfter (e.evaluate registry seed) c

/-- What operations make of a context, one after the other, be it that some of them fail. -/
def Context.after (registry : Registry) (c : Context) (operations : List Operation) : Context :=
  operations.foldl (Operation.perform registry) c

section Operations

variable {registry : Registry} {c : Context}

/-- What a computation does to a context is a trace, whether it returns or fails. -/
theorem Performs.exists_trace {α : Type} {m : EvalM α} {called : List String} {made : Nat}
    (h : Performs registry m called made) (c : Context) :
    ∃ events, Trace registry c events (contextAfter m c) := by
  rw [contextAfter]
  split
  · next hm =>
    obtain ⟨events, htrace, -⟩ := h.ok hm
    exact ⟨events, htrace⟩
  · next hm =>
    obtain ⟨events, htrace, -⟩ := h.error hm
    exact ⟨events, htrace⟩

/-- So is what an operation does: an evaluation, or an image that is registered by itself. -/
theorem Operation.exists_trace (registry : Registry) (c : Context) (o : Operation) :
    ∃ events, Trace registry c events (o.perform registry c) := by
  cases o with
  | register image => exact (performs_registerImage image).exists_trace c
  | evaluate e seed => exact (e.performs registry seed).exists_trace c

/-- Any operations leave a trace. -/
private theorem Context.exists_trace_after (registry : Registry) (c : Context)
    (operations : List Operation) :
    ∃ events, Trace registry c events (c.after registry operations) := by
  induction operations generalizing c with
  | nil => exact ⟨[], .nil⟩
  | cons o operations ih =>
    obtain ⟨events, htrace⟩ := o.exists_trace registry c
    obtain ⟨later, hlater⟩ := ih (o.perform registry c)
    exact ⟨events ++ later, htrace.append hlater⟩

end Operations

/-! ## All handles of a context -/

/-- The handles made from the start are the first ones in their order. -/
theorem Trace.fst_bindings {registry : Registry} {files : Workspace} {c : Context}
    {events : List Event} (h : Trace registry (.fresh files) events c) :
    (bindings events).map Prod.fst = (List.range c.handles.counter).map handleName := by
  have hc := h.numbered HandleTable.numbered_empty
  rw [HandleTable.Numbered, HandleTable.keys, h.entries_eq HandleTable.numbered_empty,
    List.map_append, List.map_reverse] at hc
  exact List.reverse_inj.1 ((List.append_nil _).symm.trans hc)

/-- After any registrations and evaluations, be it that some of them fail, the handles are
    `@img:0`, `@img:1` and so on, as many as the counter says, and no other text has an image. They
    were made in this order. Whatever happens afterwards, none of them is made again, and each stays
    bound to its image. A registration makes the next one. An evaluation makes as many as its
    expression asks for, or at most so many when it fails. -/
theorem handles_after_operations (registry : Registry) (files : Workspace)
    (operations : List Operation) :
    let c := (Context.fresh files).after registry operations
    (c.handles.count = c.handles.counter ∧ c.handles.keys.Nodup ∧
      (∀ s, s ∈ c.handles.keys ↔ ∃ n < c.handles.counter, s = "@img:" ++ toString n) ∧
      ∀ s, (c.handles.lookup s).isSome ↔
        ∃ n < c.handles.counter, s = "@img:" ++ toString n) ∧
    (∃ events, Trace registry (.fresh files) events c ∧
      c.handles.entries = (bindings events).reverse ∧
      (bindings events).map Prod.fst =
        (List.range c.handles.counter).map ("@img:" ++ toString ·) ∧
      ∀ later d, Trace registry c later d →
        ((bindings (events ++ later)).map Prod.fst).Nodup ∧
          ∀ s image, (s, image) ∈ bindings events → d.handles.lookup s = some image) ∧
    (∀ more, ∃ later, Trace registry c later (c.after registry more)) ∧
    (∀ image, ∃ c', registerImage image c = .ok ("@img:" ++ toString c.handles.counter) c' ∧
      c'.handles.lookup ("@img:" ++ toString c.handles.counter) = some image ∧
      c'.handles.counter = c.handles.counter + 1) ∧
    ∀ (e : Expr) (seed : Option Image),
      match e.evaluate registry seed c with
      | .ok _ c' => c'.handles.counter = c.handles.counter + e.handleCount
      | .error _ c' =>
        c.handles.counter ≤ c'.handles.counter ∧
          c'.handles.counter ≤ c.handles.counter + e.handleCount := by
  intro c
  -- All that was done is one trace from a fresh context, whose table was numbered.
  obtain ⟨events, htrace⟩ := Context.exists_trace_after registry (.fresh files) operations
  have hc : c.handles.Numbered := htrace.numbered HandleTable.numbered_empty
  simp only [← handleName_eq]
  refine ⟨⟨hc.count_eq, hc.nodup_keys, fun s => hc.mem_keys, fun s => ?_⟩,
    ⟨events, htrace, ?_, htrace.fst_bindings, fun later d hlater => ⟨?_, fun s image hs => ?_⟩⟩,
    fun more => Context.exists_trace_after registry c more, fun image => ?_, fun e seed => ?_⟩
  -- A handle names an image exactly when it is a key.
  · exact hc.isSome_lookup.trans hc.mem_keys
  -- Handles were registered one by one, the last one in front.
  · exact (htrace.entries_eq HandleTable.numbered_empty).trans (List.append_nil _)
  -- What is done later only adds to the trace, so its handles are still the first numbers.
  · rw [(htrace.append hlater).fst_bindings]
    exact nodup_map_handleName _
  -- A handle that was bound keeps its image along the rest of the trace.
  · refine (htrace.append hlater).lookup_of_mem_bindings HandleTable.numbered_empty ?_
    rw [Event.bindings_append]
    exact List.mem_append_left _ hs
  · refine ⟨_, rfl, ?_, rfl⟩
    exact (@Step.registered registry c image).lookup_of_binding rfl
  -- An evaluation takes as many handles as its tree has, or stops before it has taken them all.
  · split
    · next h =>
      obtain ⟨made, hmade, hcompletes⟩ := (e.performs registry seed).ok h
      rw [hmade.counter_eq hc, hcompletes.length_bindings]
    · next h =>
      obtain ⟨made, hmade, haborts⟩ := (e.performs registry seed).error h
      rw [hmade.counter_eq hc]
      exact ⟨Nat.le_add_right _ _, Nat.add_le_add_left haborts.length_bindings_le _⟩

/-- A registered image is found after an evaluation that failed. -/
theorem handles_after_operations_failed :
    ((Context.fresh ⟨[], []⟩).after .empty
      [.register (.blank 1 1), .evaluate (.literal "f") none]).handles.lookup "@img:0" =
        some (Image.blank 1 1) := by
  obtain ⟨-, ⟨events, -, hentries, -, hlater⟩, -⟩ :=
    handles_after_operations .empty ⟨[], []⟩
      [.register (.blank 1 1), .evaluate (.literal "f") none]
  have hmade : ("@img:0", Image.blank 1 1) ∈ bindings events := by
    rw [← List.mem_reverse, ← hentries]
    exact List.mem_singleton.2 rfl
  exact (hlater [] _ .nil).2 _ _ hmade

end Tapestry

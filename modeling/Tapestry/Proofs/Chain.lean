import Tapestry.Proofs.Grammar

/-!
# Chains denote phrases

A chain is read without regard to levels: atoms with any connectives between them. This file shows
that resolving it level by level gives the tree that the stratified grammar gives its tokens, and
that every phrase arises so.

Cutting a chain at the connectives of one level yields the operands of that level. So the levels can
be treated one after the other, from the tightest to the loosest, each time with what is known about
the operands.

## Key results

- `phrase_pipe_iff`: a phrase is a list of tokens that forms a chain, and denotes its resolution
-/

namespace Tapestry

/-! ## Cutting and resolving -/

namespace Chain

/-- A chain without a connective of the class is not cut. -/
private theorem cut_of_none {p : Connective → Bool} {head : Expr} {tail : List (Connective × Expr)}
    (h : ∀ x ∈ tail, p x.1 = false) : cut p head tail = (⟨head, tail⟩, []) := by
  induction tail generalizing head with
  | nil => rfl
  | cons x tail ih =>
    have hx := h x List.mem_cons_self
    have ht := @ih x.2 fun y hy => h y (List.mem_cons_of_mem _ hy)
    simp only [cut, ht, hx, Bool.false_eq_true, ↓reduceIte]

/-- Otherwise it is cut at the first connective of the class, and then further on. -/
private theorem cut_append {p : Connective → Bool} {head f : Expr} {k : Connective}
    {before after : List (Connective × Expr)} (h : ∀ x ∈ before, p x.1 = false)
    (hk : p k = true) :
    cut p head (before ++ (k, f) :: after) =
      (⟨head, before⟩, (k, (cut p f after).1) :: (cut p f after).2) := by
  induction before generalizing head with
  | nil => simp only [List.nil_append, cut, hk, ↓reduceIte]
  | cons x before ih =>
    have hx := h x List.mem_cons_self
    have ht := @ih x.2 fun y hy => h y (List.mem_cons_of_mem _ hy)
    simp only [List.cons_append, cut, ht, hx, Bool.false_eq_true, ↓reduceIte]

/-- The operands that a chain has at a level, each resolved at the tighter levels. -/
def operands (n : Nat) (tighter : List Nat) (c : Chain) : Expr × List (Connective × Expr) :=
  let (first, more) := cut (·.level == n) c.head c.tail
  (resolve tighter first, more.map fun (k, piece) => (k, resolve tighter piece))

/-- Resolving a chain joins its operands at the loosest level. -/
private theorem resolve_cons (n : Nat) (tighter : List Nat) (c : Chain) :
    resolve (n :: tighter) c =
      (operands n tighter c).2.foldl (fun left (k, right) => k.join left right)
        (operands n tighter c).1 := by
  simp only [resolve, operands, List.foldl_map]

/-- A chain without a connective of a level is its own and only operand there. -/
private theorem operands_of_none {n : Nat} {tighter : List Nat} {c : Chain}
    (h : ∀ x ∈ c.tail, x.1.level ≠ n) : operands n tighter c = (resolve tighter c, []) := by
  have hc : cut (·.level == n) c.head c.tail = (c, []) :=
    cut_of_none fun x hx => beq_eq_false_iff_ne.2 (h x hx)
  simp only [operands, hc, List.map_nil]

/-- The operands of a chain are those before its first connective of the level, and those after. -/
private theorem operands_append {n : Nat} {tighter : List Nat} {head f : Expr} {k : Connective}
    {before after : List (Connective × Expr)} (h : ∀ x ∈ before, x.1.level ≠ n)
    (hk : k.level = n) :
    operands n tighter ⟨head, before ++ (k, f) :: after⟩ =
      (resolve tighter ⟨head, before⟩,
        (k, (operands n tighter ⟨f, after⟩).1) :: (operands n tighter ⟨f, after⟩).2) := by
  have hc := @cut_append (·.level == n) head f k before after
    (fun x hx => beq_eq_false_iff_ne.2 (h x hx)) (beq_iff_eq.2 hk)
  simp only [operands, hc, List.map_cons]

end Chain

namespace Grammar

/-! ## Atoms in a row -/

/-- Atoms with connectives of any level between them. -/
inductive Row : List Token → Expr → List (Connective × Expr) → Prop
  | last {ts e} (h : Atom ts e) : Row ts e []
  | more {ts t us e k f tail} (h : Atom ts e) (ht : t.kind = k.kind) (h' : Row us f tail) :
      Row (ts ++ t :: us) e ((k, f) :: tail)

/-- A row takes at least one token. -/
theorem Row.ne_nil {ts : List Token} {e : Expr} {tail : List (Connective × Expr)}
    (h : Row ts e tail) : ts ≠ [] := by
  cases h with
  | last h => exact h.ne_nil
  | more => exact List.append_ne_nil_of_right_ne_nil _ (List.cons_ne_nil _ _)

/-- Two rows with a connective between them are a row. -/
theorem Row.append {ts us : List Token} {t : Token} {e f : Expr} {k : Connective}
    {before after : List (Connective × Expr)} (h : Row ts e before) (ht : t.kind = k.kind)
    (h' : Row us f after) : Row (ts ++ t :: us) e (before ++ (k, f) :: after) := by
  induction h with
  | last h => exact .more h ht h'
  | more h ht' _ ih =>
    -- The atom in front stays where it is, and the rest of its row is appended to.
    rw [List.append_assoc, List.cons_append]
    exact .more h ht' ih

/-- A row can be split at any of its connectives. -/
private theorem Row.of_append {ts : List Token} {e f : Expr} {k : Connective}
    {before after : List (Connective × Expr)} (h : Row ts e (before ++ (k, f) :: after)) :
    ∃ us t vs, ts = us ++ t :: vs ∧ Row us e before ∧ t.kind = k.kind ∧ Row vs f after := by
  -- The induction is on what is joined in front of the connective.
  induction before generalizing ts e with
  | nil =>
    cases h with
    | more h ht h' => exact ⟨_, _, _, rfl, .last h, ht, h'⟩
  | cons x before ih =>
    cases h with
    | @more us t vs _ k' f' _ h ht h' =>
      obtain ⟨us', u, vs', rfl, hb, hu, ha⟩ := ih h'
      refine ⟨us ++ t :: us', u, vs', ?_, .more h ht hb, hu, ha⟩
      rw [List.append_assoc, List.cons_append]

/-! ## Levels as numbers -/

/-- The number of a level, by which a chain is cut. -/
def Level.index : Level → Nat
  | pipe => 0
  | xor => 1
  | sum => 2
  | product => 3

/-- The numbers of the levels that are tighter than a level. -/
def Level.tighter : Level → List Nat
  | pipe => [1, 2, 3]
  | xor => [2, 3]
  | sum => [3]
  | product => []

/-- The connectives of a level are those with its number. -/
theorem Level.mem_connectives {l : Level} {k : Connective} :
    k ∈ l.connectives ↔ k.level = l.index := by
  cases l <;> cases k with
  | pipe => decide
  | operator o => cases o <;> decide

/-- No connective is tighter than the tightest level. -/
private theorem Level.connective_le (k : Connective) : k.level ≤ Level.product.index := by
  cases k with
  | pipe => decide
  | operator o => cases o <;> decide

/-! ## Operands joined from the left -/

/-- Joining stages to a pipeline appends them. -/
private theorem foldl_join_pipeline {more : List (Connective × Expr)} {es : List Expr}
    (hk : ∀ x ∈ more, x.1 = .pipe) (hs : ∀ x ∈ more, x.2.isPipeline = false) :
    more.foldl (fun left (k, right) => k.join left right) (.pipeline es) =
      .pipeline (es ++ more.map Prod.snd) := by
  induction more generalizing es with
  | nil => rw [List.foldl_nil, List.map_nil, List.append_nil]
  | cons x more ih =>
    obtain ⟨k, f⟩ := x
    have hk' : k = .pipe := hk _ List.mem_cons_self
    have hf : f.stages = [f] := Expr.stages_of_isPipeline (hs _ List.mem_cons_self)
    -- The operand is one stage, since it is no pipeline that would be taken apart.
    have hjoin : k.join (.pipeline es) f = .pipeline (es ++ [f]) := by
      rw [hk', Connective.join, Expr.pipe, hf, Expr.stages]
    have hrest := @ih (es ++ [f]) (fun y hy => hk y (List.mem_cons_of_mem _ hy))
      fun y hy => hs y (List.mem_cons_of_mem _ hy)
    simp only [List.foldl_cons, hjoin, hrest, List.map_cons, List.append_assoc,
      List.singleton_append]

/-- Joining operands with operators makes binary expressions. -/
private theorem foldl_join_binary {more : List (Connective × Expr)} {first : Expr}
    (hk : ∀ x ∈ more, x.1 ≠ .pipe) :
    more.foldl (fun left (k, right) => k.join left right) first =
      more.foldl (fun left (k, right) => .binary left k.symbol right) first := by
  -- The accumulator changes at every step, so the first operand stays general.
  induction more generalizing first with
  | nil => rfl
  | cons x more ih =>
    obtain ⟨k, f⟩ := x
    have hrest := @ih (.binary first k.symbol f)
      fun y hy => hk y (List.mem_cons_of_mem _ hy)
    -- Only a pipe joins operands otherwise.
    cases k with
    | pipe => exact absurd rfl (hk (.pipe, f) List.mem_cons_self)
    | operator o => exact hrest

/-- Joining the operands of a level from the left gives the tree that the grammar gives them. -/
private theorem OperandList.foldl_join {l : Level} {ts : List Token} {first : Expr}
    {more : List (Connective × Expr)} (h : OperandList l ts first more) :
    more.foldl (fun left (k, right) => k.join left right) first = l.build first more := by
  obtain ⟨hfirst, hmore⟩ := h.mem
  cases more with
  | nil => cases l <;> rfl
  | cons x more =>
    have hbin (hl : l ≠ .pipe) : ∀ y ∈ x :: more, y.1 ≠ .pipe := by
      intro y hy hp
      obtain ⟨o, ho⟩ := Level.exists_operator hl (hmore y hy).1
      exact nomatch hp.symm.trans ho
    cases l with
    | pipe =>
      have hk : ∀ y ∈ x :: more, y.1 = .pipe := fun y hy => List.mem_singleton.1 (hmore y hy).1
      have hs : ∀ y ∈ x :: more, y.2.isPipeline = false := fun y hy => (hmore y hy).2
      -- The first two operands make a pipeline, to which the others are appended.
      have hjoin : x.1.join first x.2 = .pipeline [first, x.2] := by
        rw [hk x List.mem_cons_self, Connective.join, Expr.pipe, Expr.stages_of_isPipeline hfirst,
          Expr.stages_of_isPipeline (hs x List.mem_cons_self), List.singleton_append]
      have hrest := @foldl_join_pipeline more [first, x.2]
        (fun y hy => hk y (List.mem_cons_of_mem _ hy))
        fun y hy => hs y (List.mem_cons_of_mem _ hy)
      simp only [List.foldl_cons, hjoin, hrest, Level.build, List.map_cons, List.cons_append,
        List.nil_append]
    | xor => exact foldl_join_binary (hbin (by decide))
    | sum => exact foldl_join_binary (hbin (by decide))
    | product => exact foldl_join_binary (hbin (by decide))

/-! ## Level by level -/

/-- The tokens form a row without a connective looser than `n`, and resolving it at the given levels
    yields the expression. -/
def Resolves (n : Nat) (levels : List Nat) (ts : List Token) (e : Expr) : Prop :=
  ∃ head tail, Row ts head tail ∧ (∀ x ∈ tail, n ≤ x.1.level) ∧
    Chain.resolve levels ⟨head, tail⟩ = e

/-- Either no connective of a chain is of a level, or one is the first. -/
private theorem exists_first (n : Nat) (tail : List (Connective × Expr)) :
    (∀ x ∈ tail, x.1.level ≠ n) ∨
      ∃ before k f after, tail = before ++ (k, f) :: after ∧ (∀ x ∈ before, x.1.level ≠ n) ∧
        k.level = n := by
  -- The first one is found by search, and those in front of it failed the test.
  cases hf : tail.find? (·.1.level == n) with
  | none =>
    exact .inl fun x hx he => List.find?_eq_none.1 hf x hx (beq_iff_eq.2 he)
  | some x =>
    obtain ⟨hx, before, after, rfl, hb⟩ := List.find?_eq_some_iff_append.1 hf
    refine .inr ⟨before, x.1, x.2, after, rfl, fun y hy he => ?_, beq_iff_eq.1 hx⟩
    have := hb y hy
    rw [beq_iff_eq.2 he] at this
    exact nomatch this

/-- What the operands of a level are, given what a single one is. -/
private theorem operands_iff {l : Level} {ts : List Token} {first : Expr}
    {more : List (Connective × Expr)}
    (ih : ∀ us e, Operand l us e ↔ Resolves (l.index + 1) l.tighter us e) :
    OperandList l ts first more ↔
      ∃ head tail, Row ts head tail ∧ (∀ x ∈ tail, l.index ≤ x.1.level) ∧
        Chain.operands l.index l.tighter ⟨head, tail⟩ = (first, more) := by
  constructor
  · intro h
    -- The rows of the operands are put together, with the connectives of the level between them.
    induction more generalizing ts first with
    | nil =>
      cases h with
      | last h =>
        obtain ⟨head, tail, hrow, hlt, hres⟩ := (ih _ _).1 h
        refine ⟨head, tail, hrow, fun x hx => Nat.le_of_lt (hlt x hx), ?_⟩
        rw [Chain.operands_of_none fun x hx => Nat.ne_of_gt (hlt x hx), hres]
    | cons y more ihm =>
      cases h with
      | more h hk ht h' =>
        obtain ⟨head, tail, hrow, hlt, hres⟩ := (ih _ _).1 h
        obtain ⟨head', tail', hrow', hle', hop'⟩ := ihm h'
        have hk := Level.mem_connectives.1 hk
        refine ⟨head, _, hrow.append ht hrow', fun x hx => ?_, ?_⟩
        · rcases List.mem_append.1 hx with hx | hx
          · exact Nat.le_of_lt (hlt x hx)
          · rcases List.mem_cons.1 hx with rfl | hx
            · exact Nat.le_of_eq hk.symm
            · exact hle' x hx
        · rw [Chain.operands_append (fun x hx => Nat.ne_of_gt (hlt x hx)) hk, hres, hop']
  · rintro ⟨head, tail, hrow, hle, hop⟩
    -- The row is split at its first connective of the level, if it has one.
    induction more generalizing ts first head tail with
    | nil =>
      -- With a connective of the level there would be a second operand.
      rcases exists_first l.index tail with hne | ⟨before, k, f, after, rfl, hb, hk⟩
      · rw [Chain.operands_of_none hne] at hop
        refine .last ((ih _ _).2 ⟨head, tail, hrow, fun x hx => ?_, (Prod.mk.inj hop).1⟩)
        exact Nat.lt_of_le_of_ne (hle x hx) (hne x hx).symm
      · rw [Chain.operands_append hb hk] at hop
        exact nomatch (Prod.mk.inj hop).2
    | cons y more ihm =>
      rcases exists_first l.index tail with hne | ⟨before, k, f, after, rfl, hb, hk⟩
      · rw [Chain.operands_of_none hne] at hop
        exact nomatch (Prod.mk.inj hop).2
      · rw [Chain.operands_append hb hk] at hop
        obtain ⟨hfirst, hmore⟩ := Prod.mk.inj hop
        obtain ⟨rfl, hafter⟩ := List.cons.inj hmore
        obtain ⟨us, t, vs, rfl, hus, ht, hvs⟩ := hrow.of_append
        have hleft : Operand l us first := by
          refine (ih _ _).2 ⟨head, before, hus, fun y hy => ?_, hfirst⟩
          exact Nat.lt_of_le_of_ne (hle y (List.mem_append_left _ hy)) (hb y hy).symm
        have hright : ∀ y ∈ after, l.index ≤ y.1.level := fun y hy =>
          hle y (List.mem_append_right _ (List.mem_cons_of_mem _ hy))
        have hop' : Chain.operands l.index l.tighter ⟨f, after⟩ = (_, more) := Prod.ext rfl hafter
        exact .more hleft (Level.mem_connectives.2 hk) ht (ihm _ _ hvs hright hop')

/-- What a phrase of a level is, given what a single operand is. -/
private theorem phrase_iff {l : Level}
    (ih : ∀ us e, Operand l us e ↔ Resolves (l.index + 1) l.tighter us e) (ts : List Token)
    (e : Expr) : Phrase l ts e ↔ Resolves l.index (l.index :: l.tighter) ts e := by
  constructor
  · rintro ⟨h⟩
    -- Operands of the level are the pieces between its connectives, by the hypothesis on tighter
    -- ones.
    obtain ⟨head, tail, hrow, hle, hop⟩ := (operands_iff ih).1 h
    refine ⟨head, tail, hrow, hle, ?_⟩
    rw [Chain.resolve_cons, hop, h.foldl_join]
  · rintro ⟨head, tail, hrow, hle, hres⟩
    have h : OperandList l ts (Chain.operands l.index l.tighter ⟨head, tail⟩).1
        (Chain.operands l.index l.tighter ⟨head, tail⟩).2 :=
      (operands_iff ih).2 ⟨head, tail, hrow, hle, rfl⟩
    rw [Chain.resolve_cons, h.foldl_join] at hres
    exact hres ▸ .build h

/-- An operand of the tightest level is an atom, and so is a row without connectives. -/
private theorem operand_product_iff (ts : List Token) (e : Expr) :
    Operand .product ts e ↔ Resolves (Level.product.index + 1) Level.product.tighter ts e := by
  constructor
  · intro (.product h)
    exact ⟨e, [], .last h, fun x hx => (nomatch hx), rfl⟩
  · rintro ⟨head, tail, hrow, hlt, rfl⟩
    cases hrow with
    | last h => exact .product h
    | more =>
      have := hlt _ List.mem_cons_self
      exact absurd (Level.connective_le _) (Nat.not_le_of_lt this)

/-- A list of tokens denotes an expression exactly when it is a row of atoms that resolves to it. -/
theorem phrase_pipe_iff {ts : List Token} {e : Expr} :
    Phrase .pipe ts e ↔ ∃ head tail, Row ts head tail ∧ (Chain.mk head tail).toExpr = e := by
  -- From the tightest level to the loosest, each with what is known about its operands.
  have hproduct := phrase_iff operand_product_iff
  have hsum := phrase_iff (l := .sum) fun us e =>
    ⟨fun (.sum h) => (hproduct us e).1 h, fun h => .sum ((hproduct us e).2 h)⟩
  have hxor := phrase_iff (l := .xor) fun us e =>
    ⟨fun (.xor h) => (hsum us e).1 h, fun h => .xor ((hsum us e).2 h)⟩
  have hpipe := phrase_iff (l := .pipe) fun us e =>
    ⟨fun (.pipe h) => (hxor us e).1 h, fun h => .pipe ((hxor us e).2 h)⟩
  rw [hpipe ts e]
  constructor
  · rintro ⟨head, tail, hrow, -, hres⟩
    exact ⟨head, tail, hrow, hres⟩
  · rintro ⟨head, tail, hrow, hres⟩
    exact ⟨head, tail, hrow, fun x _ => Nat.zero_le _, hres⟩

end Grammar

end Tapestry

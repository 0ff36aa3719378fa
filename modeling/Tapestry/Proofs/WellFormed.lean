import Tapestry.Proofs.Reading

/-!
# Well-formed expressions

The type of expressions holds trees that no text denotes. A tree is well-formed when its names and
keywords are words, its infix symbols are symbols of operators, its pipelines are flat and have at
least two stages, and no keyword is the value of a keyword. Nothing is asked of literal texts.

## Key results

- `Grammar.Phrase.wellFormed`: the grammar gives tokens of a text only well-formed trees
- `wellFormed_of_parse`: so every expression that a text denotes is well-formed
-/

namespace Tapestry

/-- Whether an argument is a keyword. -/
def Arg.isKeyed : Arg → Bool
  | keyed _ _ => true
  | _ => false

mutual

/-- Whether an expression could be written down. -/
def Expr.WellFormed : Expr → Prop
  | .command name args => IsWord name ∧ Arg.ListWellFormed args
  | .pipeline stages =>
    2 ≤ stages.length ∧ (∀ e ∈ stages, e.isPipeline = false) ∧ Expr.ListWellFormed stages
  | .binary l s r => (∃ o : Operator, s = o.symbol) ∧ l.WellFormed ∧ r.WellFormed
  | .group e => e.WellFormed
  | .literal _ => True

/-- Whether all expressions of a list could be written down. -/
def Expr.ListWellFormed : List Expr → Prop
  | [] => True
  | e :: es => e.WellFormed ∧ Expr.ListWellFormed es

/-- Whether an argument could be written down. -/
def Arg.WellFormed : Arg → Prop
  | .literal _ => True
  | .keyed key value => IsWord key ∧ value.isKeyed = false ∧ value.WellFormed
  | .nested e => e.WellFormed

/-- Whether all arguments of a list could be written down. -/
def Arg.ListWellFormed : List Arg → Prop
  | [] => True
  | a :: as => a.WellFormed ∧ Arg.ListWellFormed as

end

/-- A list is well-formed when its members are. -/
theorem Expr.listWellFormed_iff {es : List Expr} :
    Expr.ListWellFormed es ↔ ∀ e ∈ es, e.WellFormed := by
  induction es with
  | nil => exact ⟨fun _ _ h => (nomatch h), fun _ => trivial⟩
  | cons e es ih => rw [Expr.ListWellFormed, ih, List.forall_mem_cons]

theorem Arg.listWellFormed_iff {as : List Arg} :
    Arg.ListWellFormed as ↔ ∀ a ∈ as, a.WellFormed := by
  induction as with
  | nil => exact ⟨fun _ _ h => (nomatch h), fun _ => trivial⟩
  | cons a as ih => rw [Arg.ListWellFormed, ih, List.forall_mem_cons]

namespace Grammar

/-- All word tokens of a list hold words, as those of a text do. -/
def WordsOnly (ts : List Token) : Prop := ∀ t ∈ ts, t.kind = .word → IsWord t.literal

/-- What holds of tokens holds of those in front. -/
theorem WordsOnly.left {ts us : List Token} (h : WordsOnly (ts ++ us)) : WordsOnly ts :=
  fun t ht => h t (List.mem_append_left _ ht)

theorem WordsOnly.right {ts us : List Token} (h : WordsOnly (ts ++ us)) : WordsOnly us :=
  fun t ht => h t (List.mem_append_right _ ht)

theorem WordsOnly.tail {t : Token} {ts : List Token} (h : WordsOnly (t :: ts)) : WordsOnly ts :=
  fun u hu => h u (List.mem_cons_of_mem _ hu)

/-- Joining well-formed operands with operators gives a well-formed expression. -/
private theorem wellFormed_foldl_binary {first : Expr} {more : List (Connective × Expr)}
    (hf : first.WellFormed) (hk : ∀ x ∈ more, ∃ o, x.1 = .operator o)
    (hm : ∀ x ∈ more, x.2.WellFormed) :
    (more.foldl (fun left (k, right) => .binary left k.symbol right) first).WellFormed := by
  induction more generalizing first with
  | nil => exact hf
  | cons x more ih =>
    obtain ⟨o, ho⟩ := hk x List.mem_cons_self
    have hx : (Expr.binary first x.1.symbol x.2).WellFormed :=
      ⟨⟨o, by rw [ho]; rfl⟩, hf, hm x List.mem_cons_self⟩
    exact ih hx (fun y hy => hk y (List.mem_cons_of_mem _ hy))
      fun y hy => hm y (List.mem_cons_of_mem _ hy)

/-- The tree of well-formed operands of a level is well-formed. -/
private theorem OperandList.wellFormed_build {l : Level} {ts : List Token} {first : Expr}
    {more : List (Connective × Expr)} (h : OperandList l ts first more) (hf : first.WellFormed)
    (hm : ∀ x ∈ more, x.2.WellFormed) : (l.build first more).WellFormed := by
  obtain ⟨hfirst, hmore⟩ := h.mem
  cases more with
  | nil => cases l <;> exact hf
  | cons x more =>
    -- Only the loosest level has another connective than a sign.
    have hbin (hl : l ≠ .pipe) : ∀ y ∈ x :: more, ∃ o, y.1 = .operator o :=
      fun y hy => Level.exists_operator hl (hmore y hy).1
    cases l with
    | pipe =>
      refine ⟨?_, ?_, Expr.listWellFormed_iff.2 ?_⟩
      · simp only [List.length_cons, List.length_map]
        omega
      -- A stage of a pipeline is an operand, and no operand is a pipeline itself.
      · intro e he
        rcases List.mem_cons.1 he with rfl | he
        · exact hfirst
        · obtain ⟨y, hy, rfl⟩ := List.mem_map.1 he
          exact (hmore y hy).2
      · intro e he
        rcases List.mem_cons.1 he with rfl | he
        · exact hf
        · obtain ⟨y, hy, rfl⟩ := List.mem_map.1 he
          exact hm y hy
    | xor => exact wellFormed_foldl_binary hf (hbin (by decide)) hm
    | sum => exact wellFormed_foldl_binary hf (hbin (by decide)) hm
    | product => exact wellFormed_foldl_binary hf (hbin (by decide)) hm

/-- A value is no keyword. -/
private theorem ArgumentValue.isKeyed_eq_false {ts : List Token} {v : Arg}
    (h : ArgumentValue ts v) : v.isKeyed = false := by
  cases h <;> rfl

mutual

/-- What the grammar gives tokens whose words are words is well-formed. -/
theorem Phrase.wellFormed {l : Level} {ts : List Token} {e : Expr} (hw : WordsOnly ts) :
    Phrase l ts e → e.WellFormed
  | .build h => h.wellFormed_build (h.wellFormed hw).1 (h.wellFormed hw).2

/-- Operands are well-formed one by one. -/
theorem OperandList.wellFormed {l : Level} {ts : List Token} {first : Expr}
    {more : List (Connective × Expr)} (hw : WordsOnly ts) :
    OperandList l ts first more → first.WellFormed ∧ ∀ x ∈ more, x.2.WellFormed
  | .last h => ⟨h.wellFormed hw, fun _ hx => nomatch hx⟩
  | .more h _ _ h' =>
    have ⟨hf, hm⟩ := h'.wellFormed hw.right.tail
    ⟨h.wellFormed hw.left, List.forall_mem_cons.2 ⟨hf, hm⟩⟩

/-- An operand is a phrase of a tighter level. -/
theorem Operand.wellFormed {l : Level} {ts : List Token} {e : Expr} (hw : WordsOnly ts) :
    Operand l ts e → e.WellFormed
  | .pipe h => h.wellFormed hw
  | .xor h => h.wellFormed hw
  | .sum h => h.wellFormed hw
  | .product h => h.wellFormed hw

/-- A command has a word for its name. -/
theorem Atom.wellFormed {ts : List Token} {e : Expr} (hw : WordsOnly ts) :
    Atom ts e → e.WellFormed
  | .command ht h => ⟨hw _ List.mem_cons_self ht, h.wellFormed hw.tail⟩
  | .literal _ => trivial
  | .group _ h _ => by
    rw [Expr.WellFormed]
    exact h.wellFormed hw.left.tail

/-- Arguments are well-formed one by one. -/
theorem ArgumentList.wellFormed {ts : List Token} {args : List Arg} (hw : WordsOnly ts) :
    ArgumentList ts args → Arg.ListWellFormed args
  | .nil => trivial
  | .cons h h' => ⟨h.wellFormed hw.left, h'.wellFormed hw.right⟩

/-- A keyword is a word, and its value is no keyword again. -/
theorem Argument.wellFormed {ts : List Token} {arg : Arg} (hw : WordsOnly ts) :
    Argument ts arg → arg.WellFormed
  | .keyed ht _ h =>
    ⟨hw _ List.mem_cons_self ht, h.isKeyed_eq_false, h.wellFormed hw.tail.tail⟩
  | .plain h => h.wellFormed hw

/-- A nested expression is a phrase of its own. -/
theorem ArgumentValue.wellFormed {ts : List Token} {v : Arg} (hw : WordsOnly ts) :
    ArgumentValue ts v → v.WellFormed
  | .literal _ => trivial
  | .nested _ h _ => by
    rw [Arg.WellFormed]
    exact h.wellFormed hw.left.tail

end

end Grammar

/-- Every expression that a text denotes is well-formed. -/
theorem wellFormed_of_parse {text : String} {e : Expr} (h : parse text = .ok e) :
    e.WellFormed := by
  obtain ⟨stop, -, htokens⟩ := tokenize_eq text
  refine (parse_eq_ok_iff.1 h).wellFormed fun t ht => ?_
  have hmem : t ∈ tokenize text := htokens ▸ List.mem_append_left _ ht
  exact isWord_of_mem_tokenize hmem

end Tapestry

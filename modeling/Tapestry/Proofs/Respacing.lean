import Tapestry.Proofs.Layout
import Tapestry.Proofs.Reading

/-!
# Blanks do not matter

The readers look at the kinds and the literals of tokens alone. The places of tokens come into
errors and nowhere else. So two lists of tokens of the same forms are read as the same tree, or
reading both fails in the same way at tokens that stand for each other. Respacing a text keeps the
forms of its tokens, and therefore its tree.

## Key results

- `Parse.agrees_readChain`: tokens that stand for each other are read alike
- `agrees_ofTokens`: and so they are as a whole text
- `parse_respaced`: a respaced text denotes the same expression
-/

namespace Tapestry

/-- Whether two errors are the same at tokens that stand for each other. An empty text is an error
    at the end of the input. -/
inductive ParseError.AtRelated (R : Token → Token → Prop) : ParseError → ParseError → Prop
  | unexpected {t t'} (h : R t t') (hint) :
    AtRelated R (.unexpected t hint) (.unexpected t' hint)
  | unclosed {t t'} (h : R t t') : AtRelated R (.unclosed t) (.unclosed t')
  | empty {t t'} (h : R t t') : AtRelated R (.empty t.position) (.empty t'.position)
  | unknownOperator {t t'} (h : R t t') :
    AtRelated R (.unknownOperator t) (.unknownOperator t')

namespace Parse

/-- Whether two readings have related results, or fail with the same error at tokens that stand for
    each other. -/
inductive Agrees (R : Token → Token → Prop) {α : Type} (S : α → α → Prop) :
    Except ParseError α → Except ParseError α → Prop
  | ok {a a'} (h : S a a') : Agrees R S (.ok a) (.ok a')
  | error {e e'} (h : e.AtRelated R e') : Agrees R S (.error e) (.error e')

/-- Whether two readers made the same of what they took and left tokens that stand for each
    other. -/
structure SameTaken (R : Token → Token → Prop) {α : Type} (x x' : α × List Token) : Prop where
  same : x.1 = x'.1
  left : List.Forall₂ R x.2 x'.2

section Readers

variable {R : Token → Token → Prop} {α β : Type}

/-- What was read is the same, and what is left corresponds. -/
private theorem agrees_taken {a : α} {ts ts' : List Token} (h : List.Forall₂ R ts ts') :
    Agrees R (SameTaken R) (.ok (a, ts)) (.ok (a, ts')) :=
  .ok ⟨rfl, h⟩

/-- Tokens that correspond are refused alike. -/
private theorem agrees_unexpected {S : α → α → Prop} {t t' : Token} (h : R t t')
    (hint : Option Hint) :
    Agrees R S (.error (.unexpected t hint)) (.error (.unexpected t' hint)) :=
  .error (.unexpected h hint)

/-- One reading after the other. -/
theorem Agrees.bind {S : β → β → Prop} {x x' : Except ParseError (α × List Token)}
    {f f' : α × List Token → Except ParseError β} (h : Agrees R (SameTaken R) x x')
    (h' : ∀ a ts ts', x = .ok (a, ts) → List.Forall₂ R ts ts' →
      Agrees R S (f (a, ts)) (f' (a, ts'))) : Agrees R S (x.bind f) (x'.bind f') := by
  cases h with
  | @ok x x' h =>
    obtain ⟨a, ts⟩ := x
    obtain ⟨a', ts'⟩ := x'
    obtain ⟨rfl, hts⟩ := h
    exact h' a ts ts' rfl hts
  | error h => exact .error h

/-- A reading with something made of its result. -/
theorem Agrees.map {x x' : Except ParseError (α × List Token)}
    {f f' : α × List Token → β × List Token} (h : Agrees R (SameTaken R) x x')
    (h' : ∀ a ts ts', List.Forall₂ R ts ts' → SameTaken R (f (a, ts)) (f' (a, ts'))) :
    Agrees R (SameTaken R) (x.map f) (x'.map f') := by
  cases h with
  | @ok x x' h =>
    obtain ⟨a, ts⟩ := x
    obtain ⟨a', ts'⟩ := x'
    obtain ⟨rfl, hts⟩ := h
    exact .ok (h' a ts ts' hts)
  | error h => exact .error h

/-- Whether related tokens are the same apart from their places, and the ends of two inputs are
    related. The ends are not among the tokens that are read, but errors can be about them. -/
structure SameForms (R : Token → Token → Prop) (stop stop' : Token) : Prop where
  form : ∀ t t', R t t' → t.form = t'.form
  stop : R stop stop'

variable {stop stop' : Token}

/-- The kind and the literal are all that the readers ask of a token. -/
theorem SameForms.kind {t t' : Token} (hR : SameForms R stop stop') (h : R t t') :
    t.kind = t'.kind :=
  (Prod.mk.inj (hR.form t t' h)).1

/-- Tokens of the same form have the same literal. -/
theorem SameForms.literal {t t' : Token} (hR : SameForms R stop stop') (h : R t t') :
    t.literal = t'.literal :=
  (Prod.mk.inj (hR.form t t' h)).2

-- A reader that calls another one on the same tokens has the larger second component.

mutual

/-- Tokens that stand for each other are read as the same chain. -/
theorem agrees_readChain (hR : SameForms R stop stop') {ts ts' : List Token}
    (h : List.Forall₂ R ts ts') :
    Agrees R (SameTaken R) (outcome (readChain stop ts)) (outcome (readChain stop' ts')) := by
  rw [outcome_readChain, outcome_readChain]
  apply (agrees_readOperand hR h).bind
  intro head us us' hread hus
  -- The operand took a token, so there are fewer left for what is joined to it.
  have hlt : us.length < ts.length := bound_of_outcome hread
  exact (agrees_readJoined hR hus).map fun tail rest rest' hrest => ⟨rfl, hrest⟩
termination_by (ts.length, 1)

/-- The same is joined to an operand. -/
private theorem agrees_readJoined (hR : SameForms R stop stop') {ts ts' : List Token}
    (h : List.Forall₂ R ts ts') :
    Agrees R (SameTaken R) (outcome (readJoined stop ts)) (outcome (readJoined stop' ts')) := by
  match ts, ts', h with
  | [], [], .nil =>
    rw [outcome_readJoined_nil, outcome_readJoined_nil]
    exact agrees_taken .nil
  | t :: ts, t' :: ts', .cons ht hts =>
    rw [outcome_readJoined_cons, outcome_readJoined_cons, ← hR.kind ht]
    cases connective? t.kind with
    | none => exact agrees_taken (.cons ht hts)
    | some k => exact (agrees_readChain hR hts).map fun c rest rest' hrest => ⟨rfl, hrest⟩
termination_by (ts.length, 0)

/-- The same operand is read, or the same token stands in its place. -/
private theorem agrees_readOperand (hR : SameForms R stop stop') {ts ts' : List Token}
    (h : List.Forall₂ R ts ts') :
    Agrees R (SameTaken R) (outcome (readOperand stop ts)) (outcome (readOperand stop' ts')) := by
  match ts, ts', h with
  | [], [], .nil =>
    rw [outcome_readOperand_nil, outcome_readOperand_nil]
    exact agrees_unexpected hR.stop none
  | t :: ts, t' :: ts', .cons ht hts =>
    rw [outcome_readOperand_cons, outcome_readOperand_cons, ← hR.kind ht, ← hR.literal ht]
    -- What the tokens stand for is the same on both sides, so both readers take the same branch.
    cases t.kind with
    | word => exact (agrees_readArguments hR hts).map fun args rest rest' hrest => ⟨rfl, hrest⟩
    | quoted | value => exact agrees_taken hts
    | opening =>
      exact (agrees_readEnclosed hR ht hts).map fun inner rest rest' hrest => ⟨rfl, hrest⟩
    | pipe | operator | finish | closing | equals | comma => exact agrees_unexpected ht _
termination_by (ts.length, 0)

/-- The same arguments are read. -/
private theorem agrees_readArguments (hR : SameForms R stop stop') {ts ts' : List Token}
    (h : List.Forall₂ R ts ts') :
    Agrees R (SameTaken R) (outcome (readArguments stop ts))
      (outcome (readArguments stop' ts')) := by
  match ts, ts', h with
  | [], [], .nil =>
    rw [outcome_readArguments_nil, outcome_readArguments_nil]
    exact agrees_taken .nil
  | t :: ts, t' :: ts', .cons ht hts =>
    rw [outcome_readArguments_cons, outcome_readArguments_cons, ← hR.kind ht]
    split
    · exact agrees_taken (.cons ht hts)
    · apply (agrees_readArgument hR (.cons ht hts)).bind
      intro arg us us' hread hus
      -- The bound on what is left is that of the first reader; the second one has as many tokens
      -- left.
      have hlt : us.length < (t :: ts).length := bound_of_outcome hread
      exact (agrees_readArguments hR hus).map fun args rest rest' hrest => ⟨rfl, hrest⟩
termination_by (ts.length, 2)

/-- The same argument is read, with the same keyword. -/
private theorem agrees_readArgument (hR : SameForms R stop stop') {ts ts' : List Token}
    (h : List.Forall₂ R ts ts') :
    Agrees R (SameTaken R) (outcome (readArgument stop ts))
      (outcome (readArgument stop' ts')) := by
  by_cases hkey : ∃ t u us, ts = t :: u :: us ∧ t.kind = .word ∧ u.kind = .equals
  · obtain ⟨t, u, us, rfl, ht, hu⟩ := hkey
    match ts', h with
    | t' :: u' :: us', .cons hrt (.cons hru hus) =>
      have ht' : t'.kind = .word := (hR.kind hrt).symm.trans ht
      have hu' : u'.kind = .equals := (hR.kind hru).symm.trans hu
      rw [outcome_readArgument_keyed stop ht hu, outcome_readArgument_keyed stop' ht' hu',
        ← hR.literal hrt]
      exact (agrees_readValue hR hus).map fun value rest rest' hrest => ⟨rfl, hrest⟩
  · rw [outcome_readArgument_plain stop fun t u us h h' => hkey ⟨t, u, us, h, h'⟩,
      outcome_readArgument_plain stop']
    · exact agrees_readValue hR h
    · -- The first two tokens are no keyword, because those that they stand for are none.
      rintro t' u' us' rfl ⟨ht, hu⟩
      match ts, h with
      | t :: u :: us, .cons hrt (.cons hru hus) =>
        exact hkey ⟨t, u, us, rfl, (hR.kind hrt).trans ht, (hR.kind hru).trans hu⟩
termination_by (ts.length, 1)

/-- The same value is read, or the same token stands in its place. -/
private theorem agrees_readValue (hR : SameForms R stop stop') {ts ts' : List Token}
    (h : List.Forall₂ R ts ts') :
    Agrees R (SameTaken R) (outcome (readValue stop ts)) (outcome (readValue stop' ts')) := by
  match ts, ts', h with
  | [], [], .nil =>
    rw [outcome_readValue_nil, outcome_readValue_nil]
    exact agrees_unexpected hR.stop _
  | t :: ts, t' :: ts', .cons ht hts =>
    rw [outcome_readValue_cons, outcome_readValue_cons, ← hR.kind ht, ← hR.literal ht]
    cases t.kind with
    | opening =>
      exact (agrees_readEnclosed hR ht hts).map fun inner rest rest' hrest => ⟨rfl, hrest⟩
    | word | value | quoted => exact agrees_taken hts
    | equals | finish | pipe | closing | comma | operator => exact agrees_unexpected ht _
termination_by (ts.length, 0)

/-- The same stands in parentheses, and is closed or not. -/
private theorem agrees_readEnclosed (hR : SameForms R stop stop') {opening opening' : Token}
    (ho : R opening opening') {ts ts' : List Token} (h : List.Forall₂ R ts ts') :
    Agrees R (SameTaken R) (outcome (readEnclosed stop opening ts))
      (outcome (readEnclosed stop' opening' ts')) := by
  rw [outcome_readEnclosed, outcome_readEnclosed]
  apply (agrees_readChain hR h).bind
  intro chain us us' _ hus
  cases hus with
  | nil => exact .error (.unclosed ho)
  | @cons t t' _ _ ht hrest =>
    have hkind := hR.kind ht
    by_cases hclosing : t.kind = .closing
    · have hclosing' : t'.kind = .closing := hkind.symm.trans hclosing
      simp only [hclosing, hclosing', ↓reduceIte]
      exact agrees_taken hrest
    · have hclosing' : t'.kind ≠ .closing := hkind ▸ hclosing
      simp only [hclosing, hclosing', ↓reduceIte]
      exact agrees_unexpected ht _
termination_by (ts.length, 2)

end

/-- All tokens are read as the same expression. -/
theorem agrees_readAll (hR : SameForms R stop stop') {ts ts' : List Token}
    (h : List.Forall₂ R ts ts') : Agrees R Eq (readAll stop ts) (readAll stop' ts') := by
  rw [readAll_eq, readAll_eq]
  cases h with
  | nil => exact .error (.empty hR.stop)
  | @cons t t' ts ts' ht hts =>
    rw [if_neg (List.cons_ne_nil t ts), if_neg (List.cons_ne_nil t' ts')]
    apply (agrees_readChain hR (.cons ht hts)).bind
    intro chain us us' _ hus
    cases hus with
    | nil => exact .ok rfl
    | @cons u u' _ _ hu _ =>
      have hkind := hR.kind hu
      simp only [← hkind]
      cases u.kind with
      | equals | comma => exact .error (.unknownOperator hu)
      | _ => exact agrees_unexpected hu _

end Readers

end Parse

open Parse

/-- Lists of tokens of the same forms, each with the end of the input behind it, are read as the
    same expression, or reading them fails at tokens in the same place of the lists. -/
theorem agrees_ofTokens {ts ts' : List Token} {stop stop' : Token}
    (h : (ts ++ [stop]).map Token.form = (ts' ++ [stop']).map Token.form) :
    Agrees (fun t t' => (t, t') ∈ (ts ++ [stop]).zip (ts' ++ [stop'])) Eq
      (Expr.ofTokens (ts ++ [stop])) (Expr.ofTokens (ts' ++ [stop'])) := by
  have hforms : List.Forall₂ (fun t t' => t.form = t'.form) (ts ++ [stop]) (ts' ++ [stop']) := by
    rw [← List.forall₂_eq_eq_eq, List.forall₂_map_left_iff, List.forall₂_map_right_iff] at h
    exact h
  have hzip := List.forall₂_iff_zip.2 ⟨hforms.length_eq, fun {t t'} htt => htt⟩
  -- The ends of the inputs are the last pair, and the first one from behind.
  rw [← List.forall₂_reverse_iff, List.reverse_concat, List.reverse_concat] at hzip
  cases hzip with
  | cons hstop hts =>
    rw [Expr.ofTokens, Expr.ofTokens, List.getLastD_concat, List.getLastD_concat,
      List.dropLast_concat, List.dropLast_concat]
    have hfront := List.forall₂_reverse_iff.1 hts
    exact agrees_readAll ⟨fun t t' => List.forall₂_zip hforms, hstop⟩ hfront

/-- Blanks do not matter. The layout of a text has the characters of the text, its pieces are where
    the tokens of the text are, and all else up to what no token starts with is blank. Any text with
    other blanks has the same kinds and literals of tokens, at the places of its pieces, and it
    denotes the same expression, or reading it fails with the same error at the token in the same
    place of the list. -/
theorem parse_respaced (text : String) :
    (layout text).text = text ∧ (layout text).Spaced ∧
      (layout text).spans = (properTokens text).map Token.extent ∧
      ∀ l, (layout text).Respaced l →
        (tokenize l.text).map Token.form = (tokenize text).map Token.form ∧
        (properTokens l.text).map Token.extent = l.spans ∧
        Agrees (fun t t' => (t, t') ∈ (tokenize text).zip (tokenize l.text)) Eq
          (parse text) (parse l.text) := by
  refine ⟨text_layout text, spaced_layout text, spans_layout text, fun l h => ?_⟩
  obtain ⟨hforms, hspans⟩ := h.tokens
  refine ⟨hforms, hspans, ?_⟩
  obtain ⟨stop, -, htokens⟩ := tokenize_eq text
  obtain ⟨stop', -, htokens'⟩ := tokenize_eq l.text
  rw [parse, parse]
  rw [htokens, htokens'] at hforms ⊢
  exact agrees_ofTokens hforms.symm

/-- A string that is not closed, behind a pipe with no blanks around it. -/
theorem parse_respaced_pipe :
    ∃ l, (layout "a|\"b").Respaced l ∧ l.text = " a\t| \"b" ∧
      (tokenize l.text).map Token.form = (tokenize "a|\"b").map Token.form ∧
      (properTokens l.text).map Token.extent = [(1, 1), (3, 1), (5, 2)] ∧
      Agrees (fun t t' => (t, t') ∈ (tokenize "a|\"b").zip (tokenize l.text)) Eq
        (parse "a|\"b") (parse l.text) := by
  have hlayout : layout "a|\"b" =
      ⟨[], [⟨'a', [], []⟩, ⟨'|', [], []⟩, ⟨'"', ['b'], []⟩], []⟩ := by
    decide +kernel
  have hrespaced : (layout "a|\"b").Respaced
      ⟨[' '], [⟨'a', [], ['\t']⟩, ⟨'|', [], [' ']⟩, ⟨'"', ['b'], []⟩], []⟩ := by
    rw [hlayout]
    refine ⟨by simp [isBlank], .cons ?_ (.cons ?_ (.cons ?_ .nil)), rfl⟩
    · exact ⟨rfl, rfl, by simp [isBlank], by simp, fun h => absurd h.1 (by decide)⟩
    · exact ⟨rfl, rfl, by simp [isBlank], by simp, fun h => absurd h.1 (by decide)⟩
    · exact ⟨rfl, rfl, by simp, by simp, fun _ => rfl⟩
  obtain ⟨-, -, -, hmove⟩ := parse_respaced "a|\"b"
  obtain ⟨hforms, hspans, hparse⟩ := hmove _ hrespaced
  exact ⟨_, hrespaced, by decide, hforms, hspans, hparse⟩

end Tapestry

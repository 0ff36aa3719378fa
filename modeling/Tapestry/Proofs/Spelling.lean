import Tapestry.Proofs.Lexing

/-!
# Writing tokens down

The lexer is the inverse of writing tokens one after the other with blanks between them. A token is
written as its text, in quotes when it is a string, and the blank behind it keeps it apart from the
next one. So a list of tokens of the right forms is what some text lexes to.

## Key results

- `steps_spell`: a token in front of a blank is read back
- `form_properTokens_textOfForms`: the tokens of a written list have the forms of the list
-/

namespace Tapestry

/-- What a token is, apart from its place in the source. -/
def Token.form (t : Token) : TokenKind × String := (t.kind, t.literal)

/-- The forms of tokens that can be written down: words, any texts in quotes, and signs. -/
inductive Legible : TokenKind × String → Prop
  | word {s} (h : IsWord s) : Legible (.word, s)
  | quoted (s) : Legible (.quoted, s)
  | sign {c kind} (h : singleKind? c = some kind) : Legible (kind, String.ofList [c])
  | minus : Legible (.operator .sub, String.ofList ['-'])

/-- The sign of every operator can be written down. -/
theorem legible_operator (o : Operator) : Legible (.operator o, o.symbol) := by
  cases o with
  | xor => exact .sign (c := '^') rfl
  | add => exact .sign (c := '+') rfl
  | sub => exact .minus
  | mul => exact .sign (c := '*') rfl
  | div => exact .sign (c := '/') rfl
  | mod => exact .sign (c := '%') rfl

/-- The characters of a token. -/
def spell (f : TokenKind × String) : List Char :=
  if f.1 = .quoted then (quote f.2).toList else f.2.toList

/-- The characters of several tokens, each with a blank behind it. -/
def spellAll (forms : List (TokenKind × String)) : List Char :=
  forms.flatMap fun f => spell f ++ [' ']

/-- The text of several tokens. It starts with a blank, which separates nothing. -/
def textOfForms (forms : List (TokenKind × String)) : String :=
  String.ofList (' ' :: spellAll forms)

/-- No sign is a string. -/
theorem singleKind?_ne_quoted {c : Char} {kind : TokenKind}
    (h : singleKind? c = some kind) : kind ≠ .quoted := by
  unfold singleKind? at h
  split at h <;> cases h <;> decide

/-- A token in front of a blank is read back. -/
theorem steps_spell {f : TokenKind × String} (h : Legible f) (cs : List Char) (o : Nat) :
    ∃ t o', Cursor.Steps ⟨spell f ++ ' ' :: cs, o⟩ [t] ⟨' ' :: cs, o'⟩ ∧ t.form = f := by
  cases h with
  | word h =>
    have hblank : Breaks (' ' :: cs) := breaks_cons (by decide) (by decide) cs
    exact ⟨_, _, steps_word h hblank o, rfl⟩
  | quoted s => exact ⟨_, _, steps_quote s (' ' :: cs) o, rfl⟩
  | @sign c kind h =>
    have hspell : spell (kind, String.ofList [c]) = [c] := by
      rw [spell, if_neg (singleKind?_ne_quoted h), String.toList_ofList]
    rw [hspell]
    exact ⟨_, _, steps_sign h (' ' :: cs) o, rfl⟩
  | minus =>
    -- The blank behind a minus sign is no digit, so the sign stands for itself.
    have hscan : Lexeme.scan? '-' ([] ++ ' ' :: cs) = some ⟨.operator .sub, ['-'], 0⟩ := rfl
    exact ⟨_, _, Cursor.steps_of_scan (by decide) hscan (by decide) o, rfl⟩

/-- Tokens with blanks between them are read back one after the other. -/
private theorem steps_spellAll {forms : List (TokenKind × String)} (h : ∀ f ∈ forms, Legible f)
    (o : Nat) :
    ∃ ts o', Cursor.Steps ⟨' ' :: spellAll forms, o⟩ ts ⟨[' '], o'⟩ ∧
      ts.map Token.form = forms := by
  induction forms generalizing o with
  | nil => exact ⟨[], o, .refl _, rfl⟩
  | cons f forms ih =>
    obtain ⟨t, o₁, hfirst, rfl⟩ :=
      steps_spell (h _ List.mem_cons_self) (spellAll forms) (o + ' '.utf8Size)
    obtain ⟨ts, o₂, hmore, rfl⟩ := ih (fun g hg => h g (List.mem_cons_of_mem _ hg)) o₁
    -- The blank in front of a spelling is skipped, and the one behind it ends its last word.
    have hfirst := hfirst.blank (c := ' ') (by decide) (List.cons_ne_nil _ _)
    have htext : spellAll (t.form :: ts.map Token.form) =
        spell t.form ++ ' ' :: spellAll (ts.map Token.form) := by
      rw [spellAll, List.flatMap_cons, List.append_assoc, List.singleton_append, spellAll]
    rw [htext]
    exact ⟨[t] ++ ts, o₂, hfirst.append hmore, rfl⟩

/-- The tokens of a written list have the forms of the list. -/
theorem form_properTokens_textOfForms {forms : List (TokenKind × String)}
    (h : ∀ f ∈ forms, Legible f) :
    (properTokens (textOfForms forms)).map Token.form = forms := by
  obtain ⟨ts, o, hsteps, rfl⟩ := steps_spellAll h 0
  rw [← String.toList_ofList (l := ' ' :: spellAll (ts.map Token.form))] at hsteps
  obtain ⟨htokens, -⟩ := Cursor.Steps.properTokens_eq hsteps rfl
  rw [textOfForms, htokens]

end Tapestry

import Tapestry.Proofs.Concatenation

/-!
# Literals in front of other text

A literal is written without knowing what comes behind it: whether it is written bare is decided by
how the lexer reads it alone. Behind an argument there is nothing, a space or a closing parenthesis,
and each of these breaks off a word or a value, while a string ends at its own closing quote. So the
literal is read as one token that covers what was written, and what comes behind it is read as if it
stood alone.

## Key results

- `readsAs_of_steps`: what one step reads is one token in front of the tokens of the other text
- `literal_readsAs`: a literal is one token in front of a space, a closing parenthesis or nothing
-/

namespace Tapestry

open Text (utf8Length)

/-- Whether a text in front of another one is read as a token that holds a literal and covers the
    text, and behind it stand the tokens of the other one, as many bytes further on. -/
def ReadsAs (written : String) (kind : TokenKind) (literal after : String) : Prop :=
  tokenize (written ++ after) =
    ⟨kind, literal, 0, utf8Length written.toList⟩ ::
      (tokenize after).map (·.moved (utf8Length written.toList))

/-- What is read in one step up to the other text is one token in front of its tokens. -/
theorem readsAs_of_steps {written : String} {kind : TokenKind} {literal after : String}
    (h : Cursor.Steps ⟨written.toList ++ after.toList, 0⟩
      [⟨kind, literal, 0, utf8Length written.toList⟩]
      ⟨after.toList, 0 + utf8Length written.toList⟩) : ReadsAs written kind literal after := by
  have htokens := h.tokens_eq
  have hmoved := (Cursor.ofText after).tokens_moved (utf8Length written.toList)
  rw [Cursor.ofText] at hmoved
  rw [ReadsAs, tokenize, Cursor.ofText, String.toList_append, htokens, hmoved,
    List.singleton_append]
  rfl

/-- A space and a closing parenthesis break off a word or a value. -/
private theorem breaks_of_head? {cs : List Char}
    (h : ∀ c ∈ cs.head?, c = ' ' ∨ c = ')') : Breaks cs := by
  intro c hc
  rcases h c hc with rfl | rfl
  · decide
  · decide

/-- In front of a space, a closing parenthesis or nothing, a literal argument is read as one word,
    value or string that holds the literal and covers what was written, and a literal expression as
    one such string. -/
theorem literal_readsAs (v after : String) (h : ∀ c ∈ after.toList.head?, c = ' ' ∨ c = ')') :
    (∃ kind, (kind = .word ∨ kind = .value ∨ kind = .quoted) ∧
      ReadsAs (Arg.literal v).render kind v after) ∧
      ReadsAs (Expr.literal v).render .quoted v after := by
  have hbreaks := breaks_of_head? h
  obtain ⟨kind, hkind, hsteps⟩ := steps_renderLiteral v hbreaks 0
  have hquote := steps_quote v after.toList 0
  rw [Arg.render, Expr.render]
  exact ⟨⟨kind, hkind, readsAs_of_steps hsteps⟩, readsAs_of_steps hquote⟩

/-- A literal with a quote, a backslash and a line feed in front of a closing parenthesis. -/
theorem literal_readsAs_closing :
    (Arg.literal "a\"b\\\n").render = "\"a\\\"b\\\\\\n\"" ∧
      (∀ c ∈ ") | x".toList.head?, c = ' ' ∨ c = ')') ∧
      (∃ kind, (kind = .word ∨ kind = .value ∨ kind = .quoted) ∧
        ReadsAs (Arg.literal "a\"b\\\n").render kind "a\"b\\\n" ") | x") ∧
      ReadsAs (Expr.literal "a\"b\\\n").render .quoted "a\"b\\\n" ") | x" := by
  have hhead : ") | x".toList.head? = some ')' := by decide
  have hafter : ∀ c ∈ ") | x".toList.head?, c = ' ' ∨ c = ')' := by
    rw [hhead]
    rintro _ ⟨⟩
    exact .inr rfl
  refine ⟨by decide +kernel, hafter, ?_⟩
  exact literal_readsAs "a\"b\\\n" ") | x" hafter

end Tapestry

import Tapestry.Proofs.Concatenation
import Tapestry.Proofs.Respacing
import Tapestry.Proofs.RoundTrip

/-!
# Expressions put together from texts

A text that denotes an expression can stand inside a larger one: in front of a pipe or behind it, in
parentheses, as an operand or as an argument. Parentheses, blanks and pipes break off whatever
stands before them, so the tokens of the parts are read one after the other (`formsOf`), and the
rules of the grammar put their phrases together. Two pipelines with a pipe between them are one flat
pipeline.

## Key results

- `LexesToEnd.formsOf_append`: the tokens of a text in front of more characters
- `Grammar.Phrase.pipe`: two phrases with a pipe between them are the pipe of what they denote
- `parse_spliced`: an expression put together from two texts denotes what they denote, put together
-/

namespace Tapestry

/-! ## Forms of tokens -/

/-- What the tokens of some characters are, apart from their places. -/
def formsOf (cs : List Char) : List (TokenKind × String) :=
  (Cursor.tokens ⟨cs, 0⟩).map Token.form

/-- It does not matter where the characters stand. -/
private theorem map_form_tokens (cs : List Char) (o : Nat) :
    (Cursor.tokens ⟨cs, o⟩).map Token.form = formsOf cs := by
  have hmoved := Cursor.tokens_moved ⟨cs, 0⟩ o
  rw [Nat.zero_add] at hmoved
  rw [hmoved, List.map_map]
  rfl

/-- The empty text has the end of the input alone. -/
theorem formsOf_nil : formsOf [] = [(.finish, "")] := by
  rw [formsOf, Cursor.tokens_nil]
  rfl

/-- What is read first stands in front. -/
theorem formsOf_of_steps {cs rest : List Char} {o o' : Nat} {ts : List Token}
    (h : Cursor.Steps ⟨cs, o⟩ ts ⟨rest, o'⟩) :
    formsOf cs = ts.map Token.form ++ formsOf rest := by
  rw [← map_form_tokens cs o, h.tokens_eq, List.map_append, map_form_tokens]

/-- A blank is skipped. -/
private theorem formsOf_blank {c : Char} (hc : isBlank c = true) (cs : List Char) :
    formsOf (c :: cs) = formsOf cs := by
  have hgap : ∀ d ∈ [c], isBlank d = true := by simpa using hc
  rw [formsOf, ← List.singleton_append, Cursor.tokens_blanks hgap, map_form_tokens]

/-- A space in front has no form of its own. -/
theorem formsOf_space (cs : List Char) : formsOf (' ' :: cs) = formsOf cs :=
  formsOf_blank rfl cs

/-- A sign is a token. -/
theorem formsOf_sign {c : Char} {kind : TokenKind} (h : singleKind? c = some kind)
    (cs : List Char) : formsOf (c :: cs) = (kind, String.ofList [c]) :: formsOf cs :=
  formsOf_of_steps (steps_sign h cs 0)

/-- A word is a token in front of what breaks it off. -/
theorem formsOf_word {s : String} (h : IsWord s) {rest : List Char} (hrest : Breaks rest) :
    formsOf (s.toList ++ rest) = (.word, s) :: formsOf rest :=
  formsOf_of_steps (steps_word h hrest 0)

/-- A text in quotes is a token in front of anything. -/
theorem formsOf_quote (s : String) (rest : List Char) :
    formsOf ((quote s).toList ++ rest) = (.quoted, s) :: formsOf rest :=
  formsOf_of_steps (steps_quote s rest 0)

/-- The sign of an operator is a token in front of a blank. -/
private theorem formsOf_operator (o : Operator) (cs : List Char) :
    formsOf (o.symbol.toList ++ ' ' :: cs) = (.operator o, o.symbol) :: formsOf cs := by
  obtain ⟨t, o', hsteps, hform⟩ := steps_spell (legible_operator o) cs 0
  have hsign : TokenKind.operator o ≠ .quoted := by simp
  rw [spell, if_neg hsign] at hsteps
  rw [formsOf_of_steps hsteps, List.map_singleton, hform, List.singleton_append, formsOf_space]

/-- The tokens of a text that is lexed to its end, in front of more characters. -/
theorem LexesToEnd.formsOf_append {text : String} (h : LexesToEnd text) {rest : List Char}
    (hrest : Breaks rest) :
    formsOf (text.toList ++ rest) = (properTokens text).map Token.form ++ formsOf rest := by
  rw [formsOf, h.tokens_append hrest, List.map_append, map_form_tokens, List.map_map]
  rfl

/-- A token at no particular place. -/
def Token.ofForm (f : TokenKind × String) : Token := ⟨f.1, f.2, 0, 0⟩

/-- A token that was made from a form has that form. -/
@[simp]
theorem Token.form_ofForm (f : TokenKind × String) : (Token.ofForm f).form = f := rfl

/-- Tokens in parentheses. -/
def enclosed (ts : List Token) : List Token :=
  .ofForm (.opening, "(") :: ts ++ [.ofForm (.closing, ")")]

/-- The tokens of a text in parentheses, in front of more characters. -/
theorem LexesToEnd.formsOf_enclosed {text : String} (h : LexesToEnd text) (rest : List Char) :
    formsOf ('(' :: (text.toList ++ ')' :: rest)) =
      (enclosed (properTokens text)).map Token.form ++ formsOf rest := by
  have hrest : Breaks (')' :: rest) := breaks_cons (by decide) (by decide) rest
  rw [formsOf_sign rfl, h.formsOf_append hrest, formsOf_sign rfl]
  simp [enclosed]

/-- A text denotes an expression when some tokens of the same forms do. -/
theorem parse_of_forms {text : String} {ts : List Token} {e : Expr}
    (hforms : formsOf text.toList = ts.map Token.form ++ [(.finish, "")])
    (h : Grammar.Phrase .pipe ts e) : parse text = .ok e := by
  obtain ⟨stop, -, htokens⟩ := tokenize_eq text
  have hread : Expr.ofTokens (ts ++ [Token.finish 0]) = .ok e := by
    rw [Expr.ofTokens, List.dropLast_concat, Parse.readAll_eq_ok_iff]
    exact h
  have hsame : (ts ++ [Token.finish 0]).map Token.form =
      (properTokens text ++ [stop]).map Token.form := by
    rw [← htokens, List.map_append]
    exact hforms.symm
  have hagrees := agrees_ofTokens hsame
  rw [hread, ← htokens, ← parse] at hagrees
  -- Reading cannot fail where it succeeds with tokens of the same forms.
  generalize parse text = result at hagrees
  cases hagrees with
  | ok heq => rw [heq]

/-! ## Phrases put together -/

namespace Grammar

/-- The stages of the operands between pipes are these operands. -/
private theorem Level.stages_build {first : Expr} {more : List (Connective × Expr)}
    (h : first.isPipeline = false) :
    (Level.pipe.build first more).stages = first :: more.map Prod.snd := by
  cases more with
  | nil => exact Expr.stages_of_isPipeline h
  | cons => rfl

/-- Two phrases with a pipe between them are the pipe of what they denote. -/
theorem Phrase.pipe {ts us : List Token} {t : Token} {e f : Expr} (h : Phrase .pipe ts e)
    (ht : t.kind = .pipe) (h' : Phrase .pipe us f) :
    Phrase .pipe (ts ++ t :: us) (e.pipe f) := by
  obtain @⟨_, _, first, more, hlist⟩ := h
  obtain @⟨_, _, first', more', hlist'⟩ := h'
  have happend := Phrase.build (hlist.append (k := .pipe) List.mem_cons_self ht hlist')
  have hflat : Level.pipe.build first (more ++ (.pipe, first') :: more') =
      (Level.pipe.build first more).pipe (Level.pipe.build first' more') := by
    rw [Expr.pipe, Level.stages_build hlist.mem.1, Level.stages_build hlist'.mem.1]
    cases more <;> simp [Level.build]
  rwa [hflat] at happend

/-- A phrase in parentheses is a group. -/
theorem Phrase.enclosed {ts : List Token} {e : Expr} (h : Phrase .pipe ts e) :
    Atom (enclosed ts) (.group e) :=
  .group rfl h rfl

/-- As an argument it is a nested expression. -/
theorem Phrase.nested {ts : List Token} {e : Expr} (h : Phrase .pipe ts e) :
    ArgumentValue (Tapestry.enclosed ts) (.nested e) :=
  .nested rfl h rfl

end Grammar

open Grammar

/-! ## Expressions put together -/

section Splicing

variable {s₁ s₂ : String} {e₁ e₂ : Expr}

/-- A text in parentheses. -/
theorem parse_enclosed (h₁ : parse s₁ = .ok e₁) (hs₁ : LexesToEnd s₁) :
    parse ("(" ++ s₁ ++ ")") = .ok (.group e₁) := by
  have htext : ("(" ++ s₁ ++ ")").toList = '(' :: (s₁.toList ++ [')']) := by simp
  have hphrase := Phrase.of_atom (parse_eq_ok_iff.1 h₁).enclosed .pipe
  apply parse_of_forms _ hphrase
  rw [htext, hs₁.formsOf_enclosed, formsOf_nil]

/-- Two texts with a pipe between them. -/
theorem parse_piped (h₁ : parse s₁ = .ok e₁) (h₂ : parse s₂ = .ok e₂) (hs₁ : LexesToEnd s₁)
    (hs₂ : LexesToEnd s₂) : parse (s₁ ++ " | " ++ s₂) = .ok (e₁.pipe e₂) := by
  have htext : (s₁ ++ " | " ++ s₂).toList =
      s₁.toList ++ ' ' :: '|' :: ' ' :: (s₂.toList ++ []) := by simp
  have hblank : Breaks (' ' :: '|' :: ' ' :: (s₂.toList ++ [])) :=
    breaks_cons (by decide) (by decide) _
  have hphrase := (parse_eq_ok_iff.1 h₁).pipe (t := .ofForm (.pipe, "|")) rfl
    (parse_eq_ok_iff.1 h₂)
  apply parse_of_forms _ hphrase
  rw [htext, hs₁.formsOf_append hblank, formsOf_space, formsOf_sign rfl, formsOf_space,
    hs₂.formsOf_append breaks_nil, formsOf_nil]
  simp

/-- Two texts in parentheses with an operator between them. -/
theorem parse_operands (h₁ : parse s₁ = .ok e₁) (h₂ : parse s₂ = .ok e₂) (hs₁ : LexesToEnd s₁)
    (hs₂ : LexesToEnd s₂) (o : Operator) :
    parse ("(" ++ s₁ ++ ") " ++ o.symbol ++ " (" ++ s₂ ++ ")") =
      .ok (.binary (.group e₁) o.symbol (.group e₂)) := by
  have htext : ("(" ++ s₁ ++ ") " ++ o.symbol ++ " (" ++ s₂ ++ ")").toList =
      '(' :: (s₁.toList ++ ')' :: ' ' ::
        (o.symbol.toList ++ ' ' :: '(' :: (s₂.toList ++ [')']))) := by simp
  have hbinary := Phrase.binary (parse_eq_ok_iff.1 h₁).enclosed
    (t := .ofForm (.operator o, o.symbol)) rfl (parse_eq_ok_iff.1 h₂).enclosed
  apply parse_of_forms _ (.of_operand (.pipe hbinary))
  rw [htext, hs₁.formsOf_enclosed, formsOf_space, formsOf_operator, hs₂.formsOf_enclosed,
    formsOf_nil]
  simp

/-- Two texts in parentheses as arguments of a command, the second with a keyword. -/
theorem parse_arguments (h₁ : parse s₁ = .ok e₁) (h₂ : parse s₂ = .ok e₂) (hs₁ : LexesToEnd s₁)
    (hs₂ : LexesToEnd s₂) {name key : String} (hname : IsWord name) (hkey : IsWord key) :
    parse (name ++ " (" ++ s₁ ++ ") " ++ key ++ "=(" ++ s₂ ++ ")") =
      .ok (.command name [.nested e₁, .keyed key (.nested e₂)]) := by
  have htext : (name ++ " (" ++ s₁ ++ ") " ++ key ++ "=(" ++ s₂ ++ ")").toList =
      name.toList ++ ' ' :: '(' :: (s₁.toList ++ ')' :: ' ' ::
        (key.toList ++ '=' :: '(' :: (s₂.toList ++ [')']))) := by simp
  -- A name ends at the blank behind it, a key at its equals sign.
  have hblank : ∀ cs, Breaks (' ' :: cs) := breaks_cons (by decide) (by decide)
  have hequals : ∀ cs, Breaks ('=' :: cs) := breaks_cons (by decide) (by decide)
  have hkeyed := Argument.keyed (t := .ofForm (.word, key)) (u := .ofForm (.equals, "=")) rfl rfl
    (parse_eq_ok_iff.1 h₂).nested
  have hargs := ArgumentList.cons (.plain (parse_eq_ok_iff.1 h₁).nested) (.cons hkeyed .nil)
  have hcommand := Atom.command (t := .ofForm (.word, name)) rfl hargs
  -- The tokens of the whole text are put together from front to back, those of the two texts in
  -- parentheses.
  apply parse_of_forms _ (.of_atom hcommand .pipe)
  rw [htext, formsOf_word hname (hblank _), formsOf_space, hs₁.formsOf_enclosed, formsOf_space,
    formsOf_word hkey (hequals _), formsOf_sign rfl, hs₂.formsOf_enclosed, formsOf_nil]
  simp

end Splicing

/-- Two texts that denote expressions, and that are lexed to their ends with every string closed,
    can be put together: with a pipe between them they denote the flat pipe of the two, in
    parentheses a group, with an operator between them a binary expression, and as arguments of a
    command nested expressions. -/
theorem parse_spliced {s₁ s₂ : String} {e₁ e₂ : Expr} (h₁ : parse s₁ = .ok e₁)
    (h₂ : parse s₂ = .ok e₂) (hs₁ : LexesToEnd s₁) (hs₂ : LexesToEnd s₂) :
    parse (s₁ ++ " | " ++ s₂) = .ok (e₁.pipe e₂) ∧
      parse ("(" ++ s₁ ++ ")") = .ok (.group e₁) ∧
      (∀ o : Operator, parse ("(" ++ s₁ ++ ") " ++ o.symbol ++ " (" ++ s₂ ++ ")") =
        .ok (.binary (.group e₁) o.symbol (.group e₂))) ∧
      ∀ name key, IsWord name → IsWord key →
        parse (name ++ " (" ++ s₁ ++ ") " ++ key ++ "=(" ++ s₂ ++ ")") =
          .ok (.command name [.nested e₁, .keyed key (.nested e₂)]) :=
  ⟨parse_piped h₁ h₂ hs₁ hs₂, parse_enclosed h₁ hs₁, parse_operands h₁ h₂ hs₁ hs₂,
    fun _ _ => parse_arguments h₁ h₂ hs₁ hs₂⟩

/-- A pipeline of two stages and a command with a string, put together. -/
theorem parse_spliced_pipelines :
    parse "a | b" = .ok (.pipeline [.command "a" [], .command "b" []]) ∧
      parse "x \"q|\"" = .ok (.command "x" [.literal "q|"]) ∧
      LexesToEnd "a | b" ∧ LexesToEnd "x \"q|\"" ∧
      parse ("a | b" ++ " | " ++ "x \"q|\"") =
        .ok (.pipeline [.command "a" [], .command "b" [], .command "x" [.literal "q|"]]) ∧
      parse ("f" ++ " (" ++ "a | b" ++ ") " ++ "k" ++ "=(" ++ "x \"q|\"" ++ ")") =
        .ok (.command "f" [.nested (.pipeline [.command "a" [], .command "b" []]),
          .keyed "k" (.nested (.command "x" [.literal "q|"]))]) := by
  have hwords : IsWord "a" ∧ IsWord "b" ∧ IsWord "x" ∧ IsWord "f" ∧ IsWord "k" := by
    decide +kernel
  obtain ⟨ha, hb, hx, hf, hk⟩ := hwords
  have hstages : (Expr.pipeline [.command "a" [], .command "b" []]).WellFormed :=
    ⟨by decide, by simp [Expr.isPipeline], ⟨ha, trivial⟩, ⟨hb, trivial⟩, trivial⟩
  have hstring : (Expr.command "x" [.literal "q|"]).WellFormed := ⟨hx, trivial, trivial⟩
  have htexts : (Expr.pipeline [.command "a" [], .command "b" []]).render = "a | b" ∧
      (Expr.command "x" [.literal "q|"]).render = "x \"q|\"" := by
    decide +kernel
  have h₁ := Expr.parse_render_eq hstages
  have h₂ := Expr.parse_render_eq hstring
  rw [htexts.1] at h₁
  rw [htexts.2] at h₂
  have hs₁ : LexesToEnd "a | b" := by decide +kernel
  have hs₂ : LexesToEnd "x \"q|\"" := by decide +kernel
  obtain ⟨hpipe, -, -, hcommand⟩ := parse_spliced h₁ h₂ hs₁ hs₂
  exact ⟨h₁, h₂, hs₁, hs₂, hpipe, hcommand "f" "k" hf hk⟩

end Tapestry

import Tapestry.Proofs.Layout

/-!
# Lexing texts put together

When the lexer gets to the end of a text and every string in it is closed, what is appended to the
text only matters where a word or a value could go on. In front of characters that break these off,
the tokens of the text are read as before, and then the tokens of what was appended, each as many
bytes further on as there are in front of it.

## Key results

- `Scanned.append`: a lexeme is read again in front of what breaks it off
- `LexesToEnd.tokens_append`: the tokens of a text that is lexed to its end stay in front
- `Cursor.tokens_moved`: the tokens from a place on do not depend on the bytes before it, apart from
  their positions
-/

namespace Tapestry

open Text (utf8Length utf8Length_append)

/-! ## Texts that are lexed to their end -/

instance (p : Piece) : Decidable p.Unterminated :=
  inferInstanceAs (Decidable (_ ∧ _))

/-- Whether the lexer gets to the end of a text, and every string in it has its closing quote. -/
structure LexesToEnd (text : String) : Prop where
  reached : .finish (utf8Length text.toList) ∈ tokenize text
  closed : ∀ p ∈ (layout text).pieces, ¬ p.Unterminated

instance (text : String) : Decidable (LexesToEnd text) :=
  decidable_of_iff
    (.finish (utf8Length text.toList) ∈ tokenize text ∧
      ∀ p ∈ (layout text).pieces, ¬ p.Unterminated)
    ⟨fun h => ⟨h.1, h.2⟩, fun h => ⟨h.reached, h.closed⟩⟩

/-- Behind the pieces of such a text nothing is left. -/
private theorem LexesToEnd.unread_eq_nil {text : String} (h : LexesToEnd text) :
    (layout text).unread = [] := by
  obtain ⟨ls, hreads⟩ := reads_layout text
  obtain ⟨-, -, q, htokens, hend⟩ := hreads.tokens (spaced_layout text).lead
  rw [text_layout] at htokens hend
  have hreached := h.reached
  rw [htokens, List.mem_append, List.mem_singleton] at hreached
  -- The place where reading ends is no proper token, so it is the end of the input.
  rcases hreached with hproper | hfinish
  · have hkind := List.all_eq_true.1 List.all_takeWhile _ hproper
    simp [Token.finish] at hkind
  -- It is behind all bytes of the text, so no byte is left unread.
  · have hq : utf8Length text.toList = q := congrArg Token.position hfinish
    by_contra hne
    have hpos := Text.utf8Length_pos hne
    omega

/-! ## Lexemes in front of more characters -/

/-- A string that is closed stays closed. -/
theorem closesQuote_append {cs : List Char} (h : closesQuote cs = true) (rest : List Char) :
    closesQuote (cs ++ rest) = true := by
  fun_induction closesQuote cs with
  | case1 => cases h
  | case2 => rfl
  | case3 => cases h
  | case4 c cs ih => exact ih h
  | case5 c cs hq hb hb' ih =>
    have hc : c ≠ '\\' := ne_backslash hb hb'
    rw [List.cons_append, closesQuote_plain hq hc, ih h]

/-- A lexeme is read again in front of what breaks it off, unless it is a string that is not
    closed. -/
theorem Scanned.append {c : Char} {cs rest : List Char} {l : Lexeme} (h : Scanned c cs l)
    (hclosed : c = '"' → closesQuote cs = true) (hrest : Breaks rest) :
    Scanned c (cs ++ rest) l := by
  cases h with
  | sign h => exact .sign h
  | minus hc h =>
    -- A sign in front of a number is one with it, and here no number may begin behind the text.
    refine .minus hc ?_
    cases cs with
    | nil =>
      rw [startsNumber_eq_false_iff]
      exact fun d hd => startsNumber_of_continuesValue (hrest d hd).1
    | cons d cs => exact h
  | quoted hc =>
    -- A string that is closed is not read any further.
    have hquoted : Scanned c (cs ++ rest) _ := .quoted hc
    rwa [readQuoted_append (hclosed hc)] at hquoted
  | word h =>
    rw [← wordTail_append hrest cs]
    exact .word h
  | value h =>
    rw [← takeWhile_append_of_breaks hrest cs]
    exact .value (h.append rest)

/-- The characters of pieces in front of others. -/
private theorem charsOf_append (ps : List Piece) (cs rest : List Char) :
    charsOf ps (cs ++ rest) = charsOf ps cs ++ rest := by
  induction ps with
  | nil => rfl
  | cons p ps ih => simp only [charsOf, ih, List.cons_append, List.append_assoc]

/-! ## Tokens at other places -/

/-- A token that stands a number of bytes further on. -/
def Token.moved (n : Nat) (t : Token) : Token := { t with position := t.position + n }

/-- The form of a token does not depend on where it is. -/
@[simp]
theorem Token.form_moved (n : Nat) (t : Token) : (t.moved n).form = t.form := rfl

@[simp]
theorem Token.kind_moved (n : Nat) (t : Token) : (t.moved n).kind = t.kind := rfl

namespace Cursor

/-- What the next token is does not depend on the bytes before it. -/
private theorem next_moved (k : Cursor) (n : Nat) :
    next ⟨k.rest, k.offset + n⟩ = (k.next.1.moved n, ⟨k.next.2.rest, k.next.2.offset + n⟩) := by
  obtain ⟨cs, o⟩ := k
  -- Blanks are skipped wherever the text begins.
  have hskip : skipBlanks ⟨cs, o + n⟩ =
      ⟨(skipBlanks ⟨cs, o⟩).rest, (skipBlanks ⟨cs, o⟩).offset + n⟩ := by
    simp only [skipBlanks, advance, Cursor.mk.injEq, true_and]
    omega
  rw [next, next, hskip]
  obtain ⟨cs', o'⟩ := skipBlanks ⟨cs, o⟩
  cases cs' with
  | nil => rfl
  | cons c cs' =>
    simp only [read]
    cases Lexeme.scan? c cs' with
    | none => rfl
    | some l =>
      simp only [advance, Token.moved, Prod.mk.injEq, Token.mk.injEq, Cursor.mk.injEq, true_and]
      omega

/-- From any place on there are the same tokens, each as many bytes further on as the place. -/
theorem tokens_moved (k : Cursor) (n : Nat) :
    tokens ⟨k.rest, k.offset + n⟩ = k.tokens.map (·.moved n) := by
  fun_induction tokens k with
  | case1 k h =>
    have hlast : (next ⟨k.rest, k.offset + n⟩).1.kind = .finish := by rwa [next_moved]
    rw [tokens, dif_pos hlast, next_moved]
    rfl
  | case2 k h ih =>
    have hproper : (next ⟨k.rest, k.offset + n⟩).1.kind ≠ .finish := by rwa [next_moved]
    rw [tokens, dif_neg hproper, next_moved, ih]
    rfl

/-- Blanks are skipped. -/
theorem tokens_blanks {gap : List Char} (h : ∀ c ∈ gap, isBlank c = true) (cs : List Char)
    (o : Nat) : tokens ⟨gap ++ cs, o⟩ = tokens ⟨cs, o + utf8Length gap⟩ := by
  rw [tokens, next_blanks h, ← tokens]

end Cursor

/-! ## Tokens of a text in front of others -/

/-- In front of what breaks them off, pieces are read as at the end of a text, and what is appended
    is read behind them. -/
theorem Reads.tokens_append {ps : List Piece} {ls : List Lexeme} (h : Reads [] ps ls)
    (hclosed : ∀ p ∈ ps, ¬ p.Unterminated) {rest : List Char} (hrest : Breaks rest)
    {gap : List Char} (hgap : ∀ c ∈ gap, isBlank c = true) (o : Nat) :
    ∃ ts stop, (∀ t ∈ ts, t.kind ≠ .finish) ∧
      Cursor.tokens ⟨gap ++ charsOf ps [], o⟩ = ts ++ [.finish stop] ∧
      Cursor.tokens ⟨gap ++ charsOf ps rest, o⟩ = ts ++ Cursor.tokens ⟨rest, stop⟩ ∧
      stop = o + utf8Length (gap ++ charsOf ps []) := by
  induction h generalizing gap o with
  | done =>
    refine ⟨[], o + utf8Length gap, nofun, ?_, ?_, ?_⟩
    · rw [Cursor.tokens_blanks hgap, charsOf, Cursor.tokens_nil, List.nil_append]
    · rw [Cursor.tokens_blanks hgap, charsOf, List.nil_append]
    · rw [charsOf, List.append_nil]
  | @piece p ps l ls hscan hextra hgap' _ ih =>
    obtain ⟨hp, hps⟩ := List.forall_mem_cons.1 hclosed
    obtain ⟨kind, literal, extra⟩ := l
    cases hextra
    -- The string of the piece is closed in the piece, so it does not go on behind it.
    have hquote : p.first = '"' → closesQuote (p.more ++ (p.gap ++ charsOf ps [])) = true := by
      intro hfirst
      refine closesQuote_append ?_ _
      rw [← Bool.not_eq_false]
      exact fun hopen => hp ⟨hfirst, hopen⟩
    have hscan' := hscan.append hquote hrest
    rw [List.append_assoc, List.append_assoc, ← charsOf_append, List.nil_append] at hscan'
    have hblank := hscan.isBlank_eq_false
    have hkind := hscan.kind_ne_finish
    have hstep := Cursor.steps_of_scan hblank hscan.scan? hkind (o + utf8Length gap)
    have hstep' := Cursor.steps_of_scan hblank hscan'.scan? hkind (o + utf8Length gap)
    obtain ⟨ts, stop, hts, htokens, htokens', hstop⟩ :=
      ih hps hgap' (o + utf8Length gap + utf8Length (p.first :: p.more))
    refine ⟨[_] ++ ts, stop, List.forall_mem_append.2 ⟨hstep.kind_ne_finish, hts⟩, ?_, ?_, ?_⟩
    · rw [Cursor.tokens_blanks hgap, charsOf, hstep.tokens_eq, htokens, List.append_assoc]
    · rw [Cursor.tokens_blanks hgap, charsOf, hstep'.tokens_eq, htokens', List.append_assoc]
    · simp only [charsOf, utf8Length, utf8Length_append] at hstop ⊢
      omega

/-- In front of what breaks it off, a text that is lexed to its end is lexed as before up to there,
    and what is appended is lexed behind it. -/
theorem LexesToEnd.tokens_append {text : String} (h : LexesToEnd text) {rest : List Char}
    (hrest : Breaks rest) (o : Nat) :
    Cursor.tokens ⟨text.toList ++ rest, o⟩ =
      (properTokens text).map (·.moved o) ++
        Cursor.tokens ⟨rest, o + utf8Length text.toList⟩ := by
  obtain ⟨ls, hreads⟩ := reads_layout text
  have hlead := (spaced_layout text).lead
  have hunread := h.unread_eq_nil
  -- Nothing is left unread, so the layout is the whole text.
  have hchars : text.toList = (layout text).lead ++ charsOf (layout text).pieces [] := by
    rw [← hunread, ← toList_layout]
  rw [hunread] at hreads
  obtain ⟨ts, stop, hts, htokens, htokens', hstop⟩ :=
    hreads.tokens_append h.closed hrest hlead 0
  rw [← hchars] at htokens hstop
  have hproper : properTokens text = ts := by
    rw [properTokens, tokenize, Cursor.ofText, htokens, List.takeWhile_append_of_pos fun t ht =>
      decide_eq_true (hts t ht)]
    simp [Token.finish]
  have hcs : text.toList ++ rest = (layout text).lead ++ charsOf (layout text).pieces rest := by
    rw [hchars, List.append_assoc, ← charsOf_append, List.nil_append]
  -- The tokens of the text come first, and those of the rest are read from where the text ends.
  calc Cursor.tokens ⟨text.toList ++ rest, o⟩
    _ = (Cursor.tokens ⟨text.toList ++ rest, 0⟩).map (·.moved o) := by
      rw [← Cursor.tokens_moved, Nat.zero_add]
    _ = ts.map (·.moved o) ++ (Cursor.tokens ⟨rest, stop⟩).map (·.moved o) := by
      rw [hcs, htokens', List.map_append]
    _ = ts.map (·.moved o) ++ Cursor.tokens ⟨rest, o + utf8Length text.toList⟩ := by
      rw [← Cursor.tokens_moved, hstop, Nat.zero_add, Nat.add_comm o]
    _ = _ := by rw [hproper]

end Tapestry

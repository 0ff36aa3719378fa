import Tapestry.Expr.Render
import Tapestry.Token.Lexer

/-!
# Reading tokens one after the other

`Cursor.Steps` relates two places of a text by the tokens read between them. It composes, so what a
text lexes to can be put together from its parts, and reading to the end of a text gives its tokens.

A word or a value goes on as far as it can. Hence a text that is a word or a value of its own is
read as one token in front of any characters that break it off (`Breaks`), and so is a text between
quotes in front of anything.

## Key results

- `Cursor.Steps.tokens_eq`: the tokens of a text are those read up to some place and those after it
- `steps_bareWord`: a text that is written bare is read back as one token
- `steps_quote`: a text in quotes is read back as one token
- `isWord_of_mem_tokenize`: every word token of a text holds a text that is a single word
-/

namespace Tapestry

open Text (isAlphanumeric)

namespace Cursor

/-! ## Steps -/

/-- Reading tokens, none of which is `finish`, leads from one place to another. -/
inductive Steps : Cursor → List Token → Cursor → Prop
  | refl (k) : Steps k [] k
  | cons {k k' l t ts} (h : k.next = (t, k')) (ht : t.kind ≠ .finish) (h' : Steps k' ts l) :
      Steps k (t :: ts) l

/-- Steps behind others are steps with the tokens of both. -/
theorem Steps.append {k l m : Cursor} {ts us : List Token} (h : Steps k ts l)
    (h' : Steps l us m) : Steps k (ts ++ us) m := by
  induction h with
  | refl => exact h'
  | cons h ht _ ih => exact .cons h ht (ih h')

/-- What was read up to a place comes before what is read from there. -/
theorem Steps.tokens_eq {k l : Cursor} {ts : List Token} (h : Steps k ts l) :
    k.tokens = ts ++ l.tokens := by
  induction h with
  | refl => rfl
  | @cons k k' l t ts h ht _ ih =>
    rw [tokens, h, dif_neg ht, ih, List.cons_append]

/-- At the end of a text there is only `finish`. -/
theorem tokens_nil (o : Nat) : tokens ⟨[], o⟩ = [.finish o] := by
  rw [tokens]
  rfl

/-- Reading everything leads to a place where no further token is found. -/
theorem exists_steps (k : Cursor) :
    ∃ ts l, Steps k ts l ∧ l.next.1.kind = .finish ∧ k.tokens = ts ++ [l.next.1] := by
  rw [tokens]
  split
  · next h => exact ⟨[], k, .refl k, h, rfl⟩
  · next h =>
    obtain ⟨ts, l, hs, hl, heq⟩ := exists_steps k.next.2
    exact ⟨k.next.1 :: ts, l, .cons rfl h hs, hl, by rw [heq, List.cons_append]⟩
termination_by k.rest.length
decreasing_by exact next_rest_lt ‹_›

/-- The tokens read on the way are not `finish`. -/
theorem Steps.kind_ne_finish {k l : Cursor} {ts : List Token} (h : Steps k ts l) :
    ∀ t ∈ ts, t.kind ≠ .finish := by
  induction h with
  | refl => exact fun t ht => nomatch ht
  | cons _ ht _ ih => exact List.forall_mem_cons.2 ⟨ht, ih⟩

/-! ## The next token -/

/-- A blank is skipped. -/
theorem next_blank {c : Char} (hc : isBlank c = true) (cs : List Char) (o : Nat) :
    next ⟨c :: cs, o⟩ = next ⟨cs, o + c.utf8Size⟩ := by
  simp [next, skipBlanks, advance, hc, Text.utf8Length, Nat.add_assoc]

/-- A blank before a token changes nothing but its place. -/
theorem Steps.blank {c : Char} {cs : List Char} {o : Nat} {ts : List Token} {l : Cursor}
    (hc : isBlank c = true) (h : Steps ⟨cs, o + c.utf8Size⟩ ts l) (hne : ts ≠ []) :
    Steps ⟨c :: cs, o⟩ ts l := by
  cases h with
  | refl => exact absurd rfl hne
  | cons h ht h' => exact .cons ((next_blank hc cs o).trans h) ht h'

/-- A lexeme becomes a token with its place, and the place after it is where reading goes on. -/
theorem next_of_scan {c : Char} {w rest : List Char} {kind : TokenKind} {literal : List Char}
    (hc : isBlank c = false)
    (h : Lexeme.scan? c (w ++ rest) = some ⟨kind, literal, w.length⟩) (o : Nat) :
    next ⟨c :: (w ++ rest), o⟩ =
      (⟨kind, String.ofList literal, o, Text.utf8Length (c :: w)⟩,
        ⟨rest, o + Text.utf8Length (c :: w)⟩) := by
  -- The first character is no blank, so nothing is skipped in front of it.
  have hk : skipBlanks ⟨c :: (w ++ rest), o⟩ = ⟨c :: (w ++ rest), o⟩ := by
    simp [skipBlanks, advance, hc, Text.utf8Length]
  have ha : advance ⟨c :: (w ++ rest), o⟩ (w.length + 1) =
      ⟨rest, o + Text.utf8Length (c :: w)⟩ := by
    simp [advance]
  rw [next, hk, read]
  simp only [h, ha, Nat.add_sub_cancel_left]

/-- Reading one lexeme. -/
theorem steps_of_scan {c : Char} {w rest : List Char} {kind : TokenKind} {literal : List Char}
    (hc : isBlank c = false)
    (h : Lexeme.scan? c (w ++ rest) = some ⟨kind, literal, w.length⟩) (hk : kind ≠ .finish)
    (o : Nat) :
    Steps ⟨c :: (w ++ rest), o⟩ [⟨kind, String.ofList literal, o, Text.utf8Length (c :: w)⟩]
      ⟨rest, o + Text.utf8Length (c :: w)⟩ :=
  .cons (next_of_scan hc h o) hk (.refl _)

end Cursor

/-- The tokens of a text before the end of the input. -/
def properTokens (text : String) : List Token :=
  (tokenize text).takeWhile fun t => t.kind ≠ .finish

/-- The tokens read up to a place where no further one is found are the tokens of the text. -/
theorem Cursor.Steps.properTokens_eq {text : String} {ts : List Token} {l : Cursor}
    (h : Steps (.ofText text) ts l) (hl : l.next.1.kind = .finish) :
    properTokens text = ts ∧ tokenize text = ts ++ [l.next.1] := by
  have heq : tokenize text = ts ++ [l.next.1] := by
    rw [tokenize, h.tokens_eq, tokens, dif_pos hl]
  refine ⟨?_, heq⟩
  rw [properTokens, heq, List.takeWhile_append_of_pos fun t ht =>
    decide_eq_true (h.kind_ne_finish t ht), List.takeWhile_cons_of_neg (by simp [hl]),
    List.append_nil]

/-- The tokens of a text are its proper tokens and the end of the input. -/
theorem tokenize_eq (text : String) :
    ∃ stop, stop.kind = .finish ∧ tokenize text = properTokens text ++ [stop] := by
  obtain ⟨ts, l, h, hl, -⟩ := (Cursor.ofText text).exists_steps
  obtain ⟨hts, heq⟩ := h.properTokens_eq hl
  exact ⟨l.next.1, hl, hts.symm ▸ heq⟩

/-! ## Signs -/

/-- A sign is a token by itself, and no blank. -/
theorem singleKind?_eq_some {c : Char} {kind : TokenKind} (h : singleKind? c = some kind) :
    isBlank c = false ∧ kind ≠ .finish ∧ kind ≠ .word ∧ kind ≠ .value ∧ startsWord c = false := by
  unfold singleKind? at h
  split at h <;> cases h <;> decide

/-- A sign is read whatever follows it. -/
theorem steps_sign {c : Char} {kind : TokenKind} (h : singleKind? c = some kind)
    (cs : List Char) (o : Nat) :
    Cursor.Steps ⟨c :: cs, o⟩ [⟨kind, String.ofList [c], o, c.utf8Size⟩]
      ⟨cs, o + c.utf8Size⟩ := by
  have hs : Lexeme.scan? c ([] ++ cs) = some ⟨kind, [c], 0⟩ := by
    rw [Lexeme.scan?, h]
  obtain ⟨hc, hk, -⟩ := singleKind?_eq_some h
  simpa [Text.utf8Length] using Cursor.steps_of_scan hc hs hk o

/-- The sign of an operator is read in front of a blank. -/
theorem steps_operator (p : Operator) (cs : List Char) (o : Nat) :
    ∃ t o', Cursor.Steps ⟨p.symbol.toList ++ ' ' :: cs, o⟩ [t] ⟨' ' :: cs, o'⟩ ∧
      t.kind = .operator p := by
  cases p with
  | sub =>
    -- A minus sign stands for itself unless a number follows it.
    have hs : Lexeme.scan? '-' ([] ++ ' ' :: cs) = some ⟨.operator .sub, ['-'], 0⟩ := rfl
    exact ⟨_, _, Cursor.steps_of_scan (by decide) hs (by decide) o, rfl⟩
  | _ => exact ⟨_, _, steps_sign rfl _ o, rfl⟩

/-! ## Words and values -/

/-- A character that starts a word is neither a blank nor a sign. -/
theorem scan?_of_startsWord {c : Char} (h : startsWord c = true) (cs : List Char) :
    isBlank c = false ∧
      Lexeme.scan? c cs = some ⟨.word, c :: wordTail cs, (wordTail cs).length⟩ := by
  have hne {d : Char} (hd : startsWord d = false) : c ≠ d := fun he =>
    Bool.false_ne_true (hd.symm.trans (he ▸ h))
  -- Signs, the minus sign and the quote are tried before words, but none of them starts one.
  have hs : singleKind? c = none := by
    cases hk : singleKind? c with
    | none => rfl
    | some kind => exact absurd rfl (hne (singleKind?_eq_some hk).2.2.2.2)
  have hm : c ≠ '-' := hne (by decide)
  have hq : c ≠ '"' := hne (by decide)
  refine ⟨?_, by simp [Lexeme.scan?, hs, hm, hq, h]⟩
  have hb : c ≠ ' ' ∧ c ≠ '\t' ∧ c ≠ '\n' ∧ c ≠ '\r' :=
    ⟨hne (by decide), hne (by decide), hne (by decide), hne (by decide)⟩
  simp [isBlank, hb]

/-- A word takes characters from the front. -/
theorem wordTail_prefix (cs : List Char) : wordTail cs <+: cs := by
  induction cs with
  | nil => exact List.prefix_rfl
  | cons c cs ih =>
    rw [wordTail]
    split
    · exact (List.prefix_cons_inj c).2 ih
    · split
      · exact (List.prefix_cons_inj c).2 ih
      · exact List.nil_prefix

/-- The rest of a word is taken again. -/
theorem wordTail_wordTail (cs : List Char) : wordTail (wordTail cs) = wordTail cs := by
  induction cs with
  | nil => rfl
  | cons c cs ih =>
    rw [wordTail]
    split
    · next hc => rw [wordTail, if_pos hc, ih]
    · next hc =>
      split
      · next hdot =>
        -- What follows the dot is itself taken, so the dot still has it in front.
        have hdot' : (c == '.' && (wordTail cs).head?.any isAlphanumeric) = true := by
          cases cs with
          | nil => simp at hdot
          | cons d cs => simp_all [wordTail]
        rw [wordTail, if_neg hc, if_pos hdot', ih]
      · rfl

/-- Every character that continues a word is a letter, a number, an underscore or a dot. -/
theorem mem_wordTail {cs : List Char} {x : Char} (h : x ∈ wordTail cs) :
    isAlphanumeric x = true ∨ x = '_' ∨ x = '.' := by
  induction cs with
  | nil => exact absurd h List.not_mem_nil
  | cons y cs ih =>
    rw [wordTail] at h
    split at h
    · next hy =>
      rcases List.mem_cons.1 h with rfl | h
      -- A character that the word keeps is alphanumeric or an underscore, or it is a dot in front
      -- of one.
      · simp only [Bool.or_eq_true, beq_iff_eq] at hy
        exact hy.imp_right .inl
      · exact ih h
    · split at h
      · next hdot =>
        rcases List.mem_cons.1 h with rfl | h
        · simp only [Bool.and_eq_true, beq_iff_eq] at hdot
          exact .inr (.inr hdot.1)
        · exact ih h
      · exact absurd h List.not_mem_nil

/-- No word and no value goes on with these characters. -/
def Breaks (cs : List Char) : Prop := ∀ c ∈ cs.head?, continuesValue c = false ∧ c ≠ '_'

/-- The end of a text breaks every word. -/
theorem breaks_nil : Breaks [] := fun _ h => nomatch h

/-- So does a character that may continue none. -/
theorem breaks_cons {c : Char} (h : continuesValue c = false) (h' : c ≠ '_') (cs : List Char) :
    Breaks (c :: cs) := by
  intro d hd
  rw [← Option.some.inj hd]
  exact ⟨h, h'⟩

/-- A word takes the same in front of what breaks it off. -/
theorem wordTail_append {rest : List Char} (hrest : Breaks rest) (cs : List Char) :
    wordTail (cs ++ rest) = wordTail cs := by
  -- The first character that follows continues no word, be it behind a dot or not.
  have hfirst : ∀ c ∈ rest.head?, isAlphanumeric c = false ∧ c ≠ '.' ∧ c ≠ '_' := by
    intro c hc
    obtain ⟨hv, hu⟩ := hrest c hc
    simp only [continuesValue, Bool.or_eq_false_iff, beq_eq_false_iff_ne] at hv
    exact ⟨hv.1.1.1, hv.1.1.2, hu⟩
  induction cs with
  | nil =>
    cases rest with
    | nil => rfl
    | cons c rest =>
      obtain ⟨hletter, hdot, hu⟩ := hfirst c rfl
      simp [wordTail, hletter, hdot, hu]
  | cons c cs ih =>
    have hhead : (cs ++ rest).head?.any isAlphanumeric = cs.head?.any isAlphanumeric := by
      cases cs with
      | nil =>
        cases rest with
        | nil => rfl
        | cons d rest => exact (hfirst d rfl).1
      | cons => rfl
    rw [List.cons_append, wordTail, wordTail, hhead, ih]

/-- A value likewise. -/
theorem takeWhile_append_of_breaks {rest : List Char} (hrest : Breaks rest) (cs : List Char) :
    (cs ++ rest).takeWhile continuesValue = cs.takeWhile continuesValue := by
  induction cs with
  | nil =>
    cases rest with
    | nil => rfl
    | cons c rest => exact List.takeWhile_cons_of_neg (by simp [(hrest c rfl).1])
  | cons c cs ih => rw [List.cons_append, List.takeWhile_cons, List.takeWhile_cons, ih]

/-- A value starts with these characters. -/
def StartsValue (c : Char) (cs : List Char) : Prop :=
  singleKind? c = none ∧ (c == '-' && !startsNumber cs) = false ∧ c ≠ '"' ∧
    startsWord c = false ∧ (startsValue c || c == '-') = true

/-- Only words and values are lexemes of these kinds. -/
theorem scan?_inv {c : Char} {cs : List Char} {l : Lexeme} (h : Lexeme.scan? c cs = some l)
    (hk : l.kind = .word ∨ l.kind = .value) :
    (startsWord c = true ∧ l = ⟨.word, c :: wordTail cs, (wordTail cs).length⟩) ∨
      (StartsValue c cs ∧
        l = ⟨.value, c :: cs.takeWhile continuesValue, (cs.takeWhile continuesValue).length⟩) := by
  rw [Lexeme.scan?] at h
  -- The lexer's questions one after the other; only the branches of a word and of a value have
  -- these kinds.
  cases hs : singleKind? c with
  | some kind =>
    rw [hs] at h
    cases h
    obtain ⟨-, -, hw, hv, -⟩ := singleKind?_eq_some hs
    exact absurd hk (not_or.2 ⟨hw, hv⟩)
  | none =>
    rw [hs] at h
    simp only at h
    split at h
    · cases h
      simp at hk
    · next hm =>
      split at h
      · cases h
        simp at hk
      · next hq =>
        split at h
        · next hw =>
          cases h
          exact .inl ⟨hw, rfl⟩
        · next hw =>
          split at h
          · next hv =>
            cases h
            exact .inr ⟨⟨hs, by simpa using hm, by simpa using hq, by simpa using hw, hv⟩, rfl⟩
          · exact nomatch h

/-- Where a value starts, one is read. -/
theorem scan?_of_startsValue {c : Char} {cs : List Char} (h : StartsValue c cs) :
    Lexeme.scan? c cs =
      some ⟨.value, c :: cs.takeWhile continuesValue, (cs.takeWhile continuesValue).length⟩ := by
  obtain ⟨hs, hm, hq, hw, hv⟩ := h
  simp only [Lexeme.scan?, hs, hm, hw, hv, beq_iff_eq, hq, Bool.false_eq_true, ↓reduceIte]

/-- A word or a value holds the characters it takes. -/
private theorem scan?_literal {c : Char} {cs : List Char} {l : Lexeme}
    (h : Lexeme.scan? c cs = some l) (hk : l.kind = .word ∨ l.kind = .value) :
    l.literal = c :: cs.take l.extra ∧ l.extra ≤ cs.length := by
  rcases scan?_inv h hk with ⟨-, rfl⟩ | ⟨-, rfl⟩
  · have hp := wordTail_prefix cs
    exact ⟨congrArg (c :: ·) (List.prefix_iff_eq_take.1 hp), hp.length_le⟩
  · have hp := List.takeWhile_prefix (l := cs) continuesValue
    exact ⟨congrArg (c :: ·) (List.prefix_iff_eq_take.1 hp), hp.length_le⟩

/-- A value still starts when more characters come behind those that are there. -/
theorem StartsValue.append {c : Char} {cs : List Char} (h : StartsValue c cs) (rest : List Char) :
    StartsValue c (cs ++ rest) := by
  obtain ⟨hs, hm, hq, hw, hv⟩ := h
  refine ⟨hs, ?_, hq, hw, hv⟩
  cases cs with
  | nil =>
    -- A minus sign with nothing behind it is no value, so this is another character.
    have : c ≠ '-' := by simpa [startsNumber] using hm
    simp [this]
  | cons d cs => exact hm

/-- A word or a value is the same in front of what breaks it off. -/
theorem scan?_append {c : Char} {cs rest : List Char} {l : Lexeme}
    (h : Lexeme.scan? c cs = some l) (hk : l.kind = .word ∨ l.kind = .value)
    (hrest : Breaks rest) : Lexeme.scan? c (cs ++ rest) = some l := by
  rcases scan?_inv h hk with ⟨hw, rfl⟩ | ⟨hv, rfl⟩
  · rw [(scan?_of_startsWord hw _).2, wordTail_append hrest]
  · rw [scan?_of_startsValue (hv.append rest), takeWhile_append_of_breaks hrest]

/-! ## Tokens that hold their text -/

/-- A token other than `finish` was read as a lexeme behind the blanks. -/
theorem Cursor.next_inv {k k' : Cursor} {t : Token} (h : k.next = (t, k'))
    (ht : t.kind ≠ .finish) :
    ∃ c cs l, k.skipBlanks.rest = c :: cs ∧ Lexeme.scan? c cs = some l ∧ t.kind = l.kind ∧
      t.literal = String.ofList l.literal := by
  rw [next, read] at h
  -- Nothing left and nothing recognised both give the end.
  split at h
  · cases h
    exact absurd rfl ht
  · next c cs hrest =>
    split at h
    · cases h
      exact absurd rfl ht
    · next l hl =>
      cases h
      exact ⟨c, cs, l, hrest, hl, rfl, rfl⟩

/-- A text whose first token is a word or a value that holds all of the text is a lexeme. -/
private theorem exists_scan_of_literal {s : String} {t : Token} {k : Cursor}
    (h : (Cursor.ofText s).next = (t, k)) (hk : t.kind = .word ∨ t.kind = .value)
    (hl : t.literal = s) :
    ∃ c cs, s.toList = c :: cs ∧ isBlank c = false ∧
      Lexeme.scan? c cs = some ⟨t.kind, c :: cs, cs.length⟩ := by
  have hf : t.kind ≠ .finish := by rcases hk with hk | hk <;> rw [hk] <;> decide
  obtain ⟨c, cs, l, hrest, hscan, hkind, hlit⟩ := Cursor.next_inv h hf
  obtain ⟨hlit', hle⟩ := scan?_literal hscan (hkind ▸ hk)
  -- The literal is the text, so no character was skipped before it or left after it.
  have hs : s.toList = c :: cs.take l.extra := by
    rw [← hl, hlit, String.toList_ofList, hlit']
  have hdrop : s.toList.drop (s.toList.takeWhile isBlank).length = c :: cs := hrest
  have hlen := congrArg List.length hdrop
  have hlen' := congrArg List.length hs
  rw [List.length_drop, List.length_cons] at hlen
  rw [List.length_cons, List.length_take, Nat.min_eq_left hle] at hlen'
  have hall : l.extra = cs.length := by omega
  have hnone : (s.toList.takeWhile isBlank).length = 0 := by omega
  rw [hnone, List.drop_zero] at hdrop
  refine ⟨c, cs, hdrop, ?_, ?_⟩
  · rw [hdrop] at hnone
    by_cases hb : isBlank c = true
    · simp [hb] at hnone
    · simpa using hb
  · rw [hscan, hkind, ← hall]
    rw [hall, List.take_length] at hlit'
    exact congrArg some (Lexeme.mk.injEq .. ▸ ⟨rfl, hlit', rfl⟩)

/-- The first of several tokens is the next one. -/
private theorem Cursor.next_of_tokens {k : Cursor} {t u : Token} {ts : List Token}
    (h : k.tokens = t :: u :: ts) : k.next = (t, k.next.2) ∧ t.kind ≠ .finish := by
  rw [tokens] at h
  split at h
  · exact nomatch (List.cons.inj h).2
  · next hf =>
    obtain ⟨rfl, -⟩ := List.cons.inj h
    exact ⟨rfl, hf⟩

/-! ## Words -/

/-- A text that is a word: the lexer reads it as a single word token, which covers it. -/
def IsWord (s : String) : Prop :=
  tokenize s = [⟨.word, s, 0, Text.utf8Length s.toList⟩, .finish (Text.utf8Length s.toList)]

instance (s : String) : Decidable (IsWord s) :=
  inferInstanceAs (Decidable (tokenize s = _))

/-- A word is a character that starts one and characters that all continue it. -/
theorem isWord_iff {s : String} :
    IsWord s ↔ ∃ c cs, s.toList = c :: cs ∧ startsWord c = true ∧ wordTail cs = cs := by
  constructor
  · intro h
    obtain ⟨hnext, -⟩ := Cursor.next_of_tokens h
    obtain ⟨c, cs, hs, -, hscan⟩ := exists_scan_of_literal hnext (.inl rfl) rfl
    -- A text that is one word is scanned as a word, and what the word takes is all that is behind
    -- its first character.
    rcases scan?_inv hscan (.inl rfl) with ⟨hw, hl⟩ | ⟨-, hl⟩
    · exact ⟨c, cs, hs, hw, (List.cons.inj (Lexeme.mk.inj hl).2.1).2.symm⟩
    · exact nomatch (Lexeme.mk.inj hl).1
  · rintro ⟨c, cs, hs, hw, htail⟩
    obtain ⟨hb, hscan⟩ := scan?_of_startsWord hw (cs ++ [])
    rw [wordTail_append breaks_nil, htail] at hscan
    have hstep := Cursor.steps_of_scan hb hscan (by decide) 0
    rw [List.append_nil, Nat.zero_add, ← hs, String.ofList_toList] at hstep
    rw [IsWord, tokenize, Cursor.ofText, hstep.tokens_eq, Cursor.tokens_nil]
    rfl

/-- Every word token of a text holds a text that is a word. -/
theorem isWord_of_mem_tokenize {text : String} {t : Token} (h : t ∈ tokenize text)
    (ht : t.kind = .word) : IsWord t.literal := by
  obtain ⟨ts, l, hsteps, hfin, htokens⟩ := (Cursor.ofText text).exists_steps
  rw [tokenize, htokens] at h
  have hmem : t ∈ ts := by
    rcases List.mem_append.1 h with h | h
    · exact h
    · rw [List.mem_singleton.1 h, hfin] at ht
      exact nomatch ht
  -- Follow the steps up to the one that read the token.
  clear h htokens
  generalize Cursor.ofText text = k at hsteps
  induction hsteps with
  | refl => exact nomatch hmem
  | @cons k k' l u ts hnext hu _ ih =>
    rcases List.mem_cons.1 hmem with rfl | hmem
    · obtain ⟨c, cs, l, -, hscan, hkind, hlit⟩ := Cursor.next_inv hnext hu
      rw [ht] at hkind
      rcases scan?_inv hscan (.inl hkind.symm) with ⟨hw, rfl⟩ | ⟨-, rfl⟩
      · rw [hlit]
        exact isWord_iff.2 ⟨c, wordTail cs, String.toList_ofList, hw, wordTail_wordTail cs⟩
      · exact nomatch hkind
    · exact ih hfin hmem

/-- A word is read as one token in front of what breaks it off. -/
theorem steps_word {s : String} (h : IsWord s) {rest : List Char} (hrest : Breaks rest)
    (o : Nat) :
    Cursor.Steps ⟨s.toList ++ rest, o⟩ [⟨.word, s, o, Text.utf8Length s.toList⟩]
      ⟨rest, o + Text.utf8Length s.toList⟩ := by
  obtain ⟨c, cs, hs, hw, htail⟩ := isWord_iff.1 h
  obtain ⟨hb, hscan⟩ := scan?_of_startsWord hw (cs ++ rest)
  rw [wordTail_append hrest, htail] at hscan
  have hstep := Cursor.steps_of_scan hb hscan (by decide) o
  rwa [← List.cons_append, ← hs, String.ofList_toList] at hstep

/-! ## Literals -/

/-- A text that is written bare is read back as one token in front of what breaks it off. -/
theorem steps_bareWord {s : String} (h : isBareWord s = true) {rest : List Char}
    (hrest : Breaks rest) (o : Nat) :
    ∃ kind, (kind = .word ∨ kind = .value) ∧
      Cursor.Steps ⟨s.toList ++ rest, o⟩ [⟨kind, s, o, Text.utf8Length s.toList⟩]
        ⟨rest, o + Text.utf8Length s.toList⟩ := by
  rw [isBareWord] at h
  split at h
  · next t u htokens =>
    -- Its only token spans the whole text, so its scan keeps what it takes when a break follows.
    simp only [Bool.and_eq_true, Bool.or_eq_true, beq_iff_eq] at h
    obtain ⟨hnext, hf⟩ := Cursor.next_of_tokens htokens
    obtain ⟨c, cs, hs, hb, hscan⟩ := exists_scan_of_literal hnext h.1 h.2
    have hstep := Cursor.steps_of_scan hb (scan?_append hscan h.1 hrest) hf o
    rw [← List.cons_append, ← hs, String.ofList_toList] at hstep
    exact ⟨t.kind, h.1, hstep⟩
  · exact absurd h Bool.false_ne_true

/-- Reading goes past a character that is neither a quote nor a backslash. -/
theorem readQuoted_plain {c : Char} (hq : c ≠ '"') (hb : c ≠ '\\') (cs : List Char) :
    readQuoted (c :: cs) = (c :: (readQuoted cs).1, (readQuoted cs).2 + 1) := by
  rw [readQuoted]
  · intro h; exact absurd h hq
  · intro h; exact absurd h hb
  · intro _ _ h; exact absurd h hb

/-- An escaped text is read back up to its closing quote. -/
private theorem readQuoted_escape (s rest : List Char) :
    readQuoted (s.flatMap escape ++ '"' :: rest) = (s, (s.flatMap escape).length + 1) := by
  induction s with
  | nil => rfl
  | cons c s ih =>
    rw [List.flatMap_cons, List.append_assoc, List.length_append]
    by_cases hesc : escape c = [c]
    · have hq : c ≠ '"' := by rintro rfl; exact absurd hesc (by decide)
      have hb : c ≠ '\\' := by rintro rfl; exact absurd hesc (by decide)
      rw [hesc, List.singleton_append, readQuoted_plain hq hb, ih]
      simp only [List.length_singleton, Prod.mk.injEq, true_and]
      omega
    · -- An escaped character is a backslash and the character that stands for it.
      obtain ⟨d, hd, hcd⟩ : ∃ d, escape c = ['\\', d] ∧ unescape d = c := by
        unfold escape at hesc ⊢
        split at hesc
        · exact ⟨'"', rfl, rfl⟩
        · exact ⟨'\\', rfl, rfl⟩
        · exact ⟨'n', rfl, rfl⟩
        · exact ⟨'t', rfl, rfl⟩
        · exact absurd rfl hesc
      rw [hd, List.cons_append, List.singleton_append, readQuoted, ih, hcd]
      simp only [List.length_cons, List.length_nil, Prod.mk.injEq, true_and]
      omega

/-- A text in quotes is read back as one token whatever follows. -/
theorem steps_quote (s : String) (rest : List Char) (o : Nat) :
    Cursor.Steps ⟨(quote s).toList ++ rest, o⟩
      [⟨.quoted, s, o, Text.utf8Length (quote s).toList⟩]
      ⟨rest, o + Text.utf8Length (quote s).toList⟩ := by
  -- The closing quote is the first one that is not escaped.
  have hchars : (quote s).toList = '"' :: (s.toList.flatMap escape ++ ['"']) := by
    rw [quote, String.toList_ofList, List.cons_append]
  have hscan : Lexeme.scan? '"' (s.toList.flatMap escape ++ ['"'] ++ rest) =
      some ⟨.quoted, s.toList, (s.toList.flatMap escape ++ ['"']).length⟩ := by
    have := readQuoted_escape s.toList rest
    rw [List.append_assoc, List.singleton_append, List.length_append, List.length_singleton]
    simp [Lexeme.scan?, singleKind?, this]
  have hstep := Cursor.steps_of_scan (by decide) hscan (by decide) o
  rwa [← List.cons_append, ← hchars, String.ofList_toList] at hstep

/-- A literal argument is read back as one token in front of what breaks it off. -/
theorem steps_renderLiteral (s : String) {rest : List Char} (hrest : Breaks rest) (o : Nat) :
    ∃ kind, (kind = .word ∨ kind = .value ∨ kind = .quoted) ∧
      Cursor.Steps ⟨(renderLiteral s).toList ++ rest, o⟩
        [⟨kind, s, o, Text.utf8Length (renderLiteral s).toList⟩]
        ⟨rest, o + Text.utf8Length (renderLiteral s).toList⟩ := by
  rw [renderLiteral]
  split
  · next h =>
    obtain ⟨kind, hkind, hstep⟩ := steps_bareWord h hrest o
    exact ⟨kind, hkind.imp_right .inl, hstep⟩
  · exact ⟨.quoted, .inr (.inr rfl), steps_quote s rest o⟩

end Tapestry

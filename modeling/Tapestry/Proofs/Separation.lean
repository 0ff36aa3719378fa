import Tapestry.Proofs.Concatenation
import Tapestry.Proofs.Tiling

/-!
# Texts with blanks between them

Blanks break off a word or a value and are part of no token. So a text that stands behind another
one, with blanks between them, is lexed as if it stood alone, as many bytes further on.

This fails for two kinds of first texts. The lexer may have stopped in front of a character that
starts no token, and then it stops there again; or the last token is a string without a closing
quote, and then the blanks become part of it. In both cases the longer text has other tokens, so
the law holds behind the remaining texts and behind no others.

## Key results

- `exists_unclosed`: a string without a closing quote is the last token of its text
- `reached_of_tokens`: a character that starts no token keeps what stands behind it from being lexed
- `not_unclosedIn_of_mem`: a string that is the same token in a longer text has its closing quote
- `tokenize_separated_iff`: blanks separate two texts exactly when the first one is lexed to its end
  and its last token is no string without a closing quote
-/

namespace Tapestry

open Text (utf8Length utf8Length_append)

/-! ## Strings without a closing quote -/

/-- Whether a token of a text is a string that is not closed: nothing behind its opening quote, up
    to the end of the text, is its closing quote. -/
def Token.UnclosedIn (t : Token) (text : String) : Prop :=
  t.kind = .quoted ∧ ∃ before behind, text.toList = before ++ '"' :: behind ∧
    t.position = utf8Length before ∧ closesQuote behind = false

/-- What stands for a text between quotes is closed by the quote behind it. -/
theorem Unescapes.closesQuote {body text : List Char} (h : Unescapes body text)
    (after : List Char) : closesQuote (body ++ '"' :: after) = true := by
  induction h with
  | nil => rfl
  | @plain c body text hq hb _ ih =>
    rw [List.cons_append, closesQuote_plain hq hb, ih]
  | escaped _ ih => exact ih

/-- A string contains its closing quote, or nothing stands behind it. -/
private theorem InQuotes.closes_or_last {inside text after : List Char}
    (h : InQuotes inside text after) :
    ∃ cs, inside = '"' :: cs ∧ (closesQuote cs = true ∨ after = []) := by
  cases h with
  | closed h => exact ⟨_, rfl, .inl (h.closesQuote [])⟩
  | unclosed => exact ⟨_, rfl, .inr rfl⟩
  | dangling => exact ⟨_, rfl, .inr rfl⟩

/-- Behind blanks, the token of a piece that is a string without a closing quote comes last, and
    its opening quote stands where the token does. -/
private theorem Reads.exists_last {unread : List Char} {ps : List Piece} {ls : List Lexeme}
    {p : Piece} (h : Reads unread ps ls) (hp : p ∈ ps) (hopen : p.Unterminated) {gap : List Char}
    (hgap : ∀ c ∈ gap, isBlank c = true) (o : Nat) :
    ∃ ts t before o', Cursor.Steps ⟨gap ++ charsOf ps unread, o⟩ (ts ++ [t]) ⟨[], o'⟩ ∧
      t.kind = .quoted ∧ t.position = o + utf8Length before ∧
      gap ++ charsOf ps unread = before ++ '"' :: p.more := by
  induction h generalizing gap o with
  | done => exact nomatch hp
  | @piece q ps l ls hscan hextra hgap' _ ih =>
    obtain ⟨kind, literal, extra⟩ := l
    cases hextra
    have hnext := Cursor.next_of_scan hscan.isBlank_eq_false hscan.scan? (o + utf8Length gap)
    rw [← Cursor.next_blanks hgap] at hnext
    have hproper : kind ≠ .finish := hscan.kind_ne_finish
    rcases List.mem_cons.1 hp with rfl | hp
    · -- The string takes all characters there are, so its piece is the last one.
      obtain ⟨hfirst, hopen⟩ := hopen
      have hquoted : Scanned p.first (p.more ++ (p.gap ++ charsOf ps unread)) _ := .quoted hfirst
      have hlexeme := Option.some.inj (hscan.scan?.symm.trans hquoted.scan?)
      obtain ⟨hkind, -, hextra⟩ := Lexeme.mk.inj hlexeme
      have hnone : p.gap ++ charsOf ps unread = [] := eq_nil_of_readQuoted hopen hextra.symm
      rw [hnone] at hnext
      refine ⟨[], _, gap, _, .cons (by rw [charsOf, hnone]; exact hnext) hproper (.refl _), hkind,
        rfl, ?_⟩
      rw [charsOf, hnone, List.append_nil, hfirst]
    -- The other pieces are read one by one, and their bytes count towards the position.
    · obtain ⟨ts, t, before, o', hsteps, hkind, hposition, hchars⟩ :=
        ih hp hgap' (o + utf8Length gap + utf8Length (q.first :: q.more))
      refine ⟨_ :: ts, t, gap ++ (q.first :: q.more ++ before), o', .cons hnext hproper hsteps,
        hkind, ?_, ?_⟩
      · rw [hposition]
        simp only [utf8Length_append]
        omega
      · rw [charsOf, hchars]
        simp

/-- A string without a closing quote is the last token of its text. -/
theorem exists_unclosed {text : String} {p : Piece} (hp : p ∈ (layout text).pieces)
    (hopen : p.Unterminated) : ∃ t ∈ (properTokens text).getLast?, t.UnclosedIn text := by
  obtain ⟨ls, hreads⟩ := reads_layout text
  obtain ⟨ts, t, before, o', hsteps, hkind, hposition, hchars⟩ :=
    hreads.exists_last hp hopen (spaced_layout text).lead 0
  rw [← toList_layout] at hsteps hchars
  rw [Nat.zero_add] at hposition
  have hproper : properTokens text = ts ++ [t] := (Cursor.Steps.properTokens_eq hsteps rfl).1
  refine ⟨t, ?_, hkind, before, p.more, hchars, hposition, hopen.2⟩
  rw [hproper, List.getLast?_concat]
  rfl

/-- A text that is lexed to its end has all its strings closed if the last token is no string
    without a closing quote. -/
private theorem lexesToEnd_of_last {text : String}
    (hend : .finish (utf8Length text.toList) ∈ tokenize text)
    (hlast : ∀ t ∈ (properTokens text).getLast?, ¬ t.UnclosedIn text) : LexesToEnd text := by
  refine ⟨hend, fun p hp hopen => ?_⟩
  obtain ⟨t, ht, hunclosed⟩ := exists_unclosed hp hopen
  exact hlast t ht hunclosed

/-! ## Where the lexer stops -/

/-- How the lexer stops in a text: behind what its tokens are read from and some blanks, in front of
    a character that is none, or at the end of the text. -/
structure StopsAt (text : String) (k : Cursor) (read gap cs : List Char) : Prop where
  steps : Cursor.Steps (.ofText text) (properTokens text) k
  rest : k.rest = gap ++ cs
  offset : k.offset = utf8Length read
  chars : text.toList = read ++ gap ++ cs
  blank : ∀ c ∈ gap, isBlank c = true
  unread : ∀ c ∈ cs.head?, isBlank c = false
  tokens : tokenize text = properTokens text ++ [.finish (utf8Length (read ++ gap))]

/-- The lexer stops in every text. -/
private theorem exists_stopsAt (text : String) : ∃ k read gap cs, StopsAt text k read gap cs := by
  obtain ⟨ts, k, hsteps, hfin, -⟩ := (Cursor.ofText text).exists_steps
  obtain ⟨hproper, htokens⟩ := hsteps.properTokens_eq hfin
  obtain ⟨gap, cs, hrest, hgap, hcs, hforever⟩ := Cursor.exists_unread hfin
  obtain ⟨read, hread, hoffset⟩ := hsteps.exists_read
  rw [Cursor.rest_ofText, hrest] at hread
  rw [Cursor.offset_ofText, Nat.zero_add] at hoffset
  have hfinish : k.next.1 = .finish (utf8Length (read ++ gap)) := by
    rw [utf8Length_append, ← hoffset]
    simpa [Cursor.take] using hforever 1
  refine ⟨k, read, gap, cs, ?_⟩
  constructor
  case steps => exact hproper ▸ hsteps
  case rest => exact hrest
  case offset => exact hoffset
  case chars => rw [hread, List.append_assoc]
  case blank => exact hgap
  case unread => exact fun c hc => (hcs c hc).1
  case tokens => rw [htokens, hproper, hfinish]

namespace StopsAt

variable {text : String} {k : Cursor} {read gap cs : List Char} {t : Token}

/-- The tokens end in front of the place where the lexer stops. -/
private theorem end_le (h : StopsAt text k read gap cs) (ht : t ∈ properTokens text) :
    t.position + t.length ≤ utf8Length read := by
  rw [← h.offset]
  exact (h.steps.between.2 t ht).2

/-- A token stands for some characters of the text. -/
theorem exists_slice (h : StopsAt text k read gap cs) (ht : t ∈ properTokens text) :
    ∃ before inside after, text.toList = before ++ inside ++ after ∧
      t.position = utf8Length before ∧ t.length = utf8Length inside ∧
      t.WrittenAs inside after := by
  obtain ⟨before, inside, after, hslice, -, hposition, hlength, hwritten⟩ := h.steps.exists_slice ht
  rw [Cursor.rest_ofText, ← List.append_assoc] at hslice
  rw [Cursor.offset_ofText, Nat.zero_add] at hposition
  exact ⟨before, inside, after, hslice, hposition, hlength, hwritten⟩

/-- A character in front of the place where the lexer stops is in a token, unless it is a blank. -/
private theorem exists_covering (h : StopsAt text k read gap cs) {before after : List Char}
    {c : Char} (htext : text.toList = before ++ c :: after)
    (hlt : utf8Length before < utf8Length (read ++ gap)) (hc : isBlank c = false) :
    ∃ t ∈ properTokens text, t.position ≤ utf8Length before ∧
      utf8Length before + c.utf8Size ≤ t.position + t.length := by
  have hzero : (Cursor.ofText text).offset + utf8Length before = utf8Length before := by
    rw [Cursor.offset_ofText, Nat.zero_add]
  rw [← Cursor.rest_ofText] at htext
  rw [utf8Length_append, ← h.offset, ← hzero] at hlt
  have hcovered := h.steps.covered h.rest h.blank htext hlt
  rw [hzero] at hcovered
  exact hcovered.resolve_right fun hblank => Bool.false_ne_true (hc.symm.trans hblank)

end StopsAt

/-- If a longer text has tokens of the text in front and tokens behind it, and no others, then the
    text in front is lexed to its end: a character that starts no token would be in none of them. -/
theorem reached_of_tokens {s text : String} {more : List Char}
    (htext : text.toList = s.toList ++ more)
    (htokens : ∀ t ∈ tokenize text, t ∈ properTokens s ∨ utf8Length s.toList ≤ t.position) :
    .finish (utf8Length s.toList) ∈ tokenize s := by
  obtain ⟨k, read, gap, cs, hs⟩ := exists_stopsAt s
  obtain ⟨k', read', gap', cs', hstop⟩ := exists_stopsAt text
  cases cs with
  | nil =>
    rw [hs.tokens, hs.chars, List.append_nil]
    exact List.mem_append_right _ List.mem_cons_self
  | cons c cs =>
    exfalso
    have hsize := c.utf8Size_pos
    have hinside : utf8Length (read ++ gap) < utf8Length s.toList := by
      rw [hs.chars, utf8Length_append _ (c :: cs), utf8Length]
      omega
    -- In the longer text the lexer does not stop before the end of the text in front.
    have hbehind : utf8Length s.toList ≤ utf8Length (read' ++ gap') := by
      have hmem : Token.finish (utf8Length (read' ++ gap')) ∈ tokenize text := by
        rw [hstop.tokens]
        exact List.mem_append_right _ List.mem_cons_self
      exact (htokens _ hmem).resolve_left fun hproper => hs.steps.kind_ne_finish _ hproper rfl
    have hcut : text.toList = (read ++ gap) ++ c :: (cs ++ more) := by
      rw [htext, hs.chars, List.append_assoc _ (c :: cs), List.cons_append]
    obtain ⟨t, ht, hstarts, hends⟩ := hstop.exists_covering hcut (by omega) (hs.unread c rfl)
    -- That token would end behind all those of the text in front, and start inside this text.
    rcases htokens t (hstop.tokens ▸ List.mem_append_left _ ht) with hproper | hlate
    · have hle := hs.end_le hproper
      rw [utf8Length_append] at hends
      omega
    · omega

/-- A token that is the same in a longer text is no string without a closing quote: in the longer
    text that would go on to the end. -/
theorem not_unclosedIn_of_mem {s text : String} {more : List Char} {t : Token}
    (htext : text.toList = s.toList ++ more) (hmore : more ≠ []) (ht : t ∈ properTokens s)
    (ht' : t ∈ tokenize text) : ¬ t.UnclosedIn s := by
  rintro ⟨hkind, before, behind, hchars, hposition, hopen⟩
  obtain ⟨k, read, gap, cs, hs⟩ := exists_stopsAt s
  obtain ⟨k', read', gap', cs', hstop⟩ := exists_stopsAt text
  have hproper : t ∈ properTokens text := by
    rw [hstop.tokens, List.mem_append, List.mem_singleton] at ht'
    refine ht'.resolve_right ?_
    rintro rfl
    exact nomatch hkind
  obtain ⟨before', inside, after, hslice, hposition', hlength, hwritten⟩ :=
    hstop.exists_slice hproper
  -- The token ends in the text in front, so its characters are characters of this text.
  have hle : utf8Length (before' ++ inside) ≤ utf8Length s.toList := by
    have hend := hs.end_le ht
    rw [hs.chars]
    simp only [utf8Length_append]
    omega
  obtain ⟨m, hfront, hafter⟩ :=
    Text.exists_append_of_utf8Length_le (hslice.symm.trans htext) hle
  obtain ⟨body, rfl, hclosed | hlast⟩ := (hwritten.quoted hkind).closes_or_last
  · have hcut : before ++ '"' :: behind = before' ++ ('"' :: (body ++ m)) := by
      rw [← hchars, hfront, List.append_assoc, List.cons_append]
    obtain ⟨-, hbehind⟩ := Text.append_inj_of_utf8Length hcut (hposition.symm.trans hposition')
    rw [(List.cons.inj hbehind).2, closesQuote_append hclosed] at hopen
    cases hopen
  · rw [hlast] at hafter
    exact hmore (List.append_eq_nil_iff.1 hafter.symm).2

/-! ## Texts with blanks between them -/

/-- Behind a text that is lexed to its end, with blanks between them, another one is lexed as if it
    stood alone. -/
theorem LexesToEnd.tokenize_separated {s₁ w s₂ : String} (h : LexesToEnd s₁) (hne : w ≠ "")
    (hw : ∀ c ∈ w.toList, isBlank c = true) :
    tokenize (s₁ ++ w ++ s₂) =
      properTokens s₁ ++ (tokenize s₂).map (·.moved (utf8Length (s₁ ++ w).toList)) := by
  -- No lexeme goes on with a blank, and the second text is behind at least one.
  have hbreaks : Breaks (w.toList ++ s₂.toList) := by
    intro c hc
    have hnonempty : w.toList ≠ [] := mt String.toList_eq_nil_iff.1 hne
    rw [List.head?_append_of_ne_nil _ hnonempty] at hc
    exact continuesValue_of_isBlank (hw c (List.mem_of_mem_head? hc))
  have hmoved := (Cursor.ofText s₂).tokens_moved (utf8Length (s₁ ++ w).toList)
  have hfixed : (properTokens s₁).map (·.moved 0) = properTokens s₁ := List.map_id _
  calc tokenize (s₁ ++ w ++ s₂)
    _ = Cursor.tokens ⟨s₁.toList ++ (w.toList ++ s₂.toList), 0⟩ := by
      rw [tokenize, Cursor.ofText, String.toList_append, String.toList_append, List.append_assoc]
    _ = properTokens s₁ ++
        Cursor.tokens ⟨w.toList ++ s₂.toList, 0 + utf8Length s₁.toList⟩ := by
      rw [h.tokens_append hbreaks, hfixed]
    _ = properTokens s₁ ++ Cursor.tokens ⟨s₂.toList, 0 + utf8Length (s₁ ++ w).toList⟩ := by
      rw [Cursor.tokens_blanks hw, String.toList_append, utf8Length_append, Nat.add_assoc]
    _ = _ := by
      rw [tokenize, ← hmoved]
      rfl

/-- With blanks between them, two texts are lexed one after the other exactly when the first one is
    lexed to its end and its last token is no string without a closing quote: the tokens are then
    those of the first text without the end of the input, and those of the second one, as many bytes
    further on as there are in front of it. -/
theorem tokenize_separated_iff {s₁ w s₂ : String} (hne : w ≠ "")
    (hw : ∀ c ∈ w.toList, c = ' ' ∨ c = '\t' ∨ c = '\r' ∨ c = '\n') :
    tokenize (s₁ ++ w ++ s₂) =
        properTokens s₁ ++ (tokenize s₂).map (·.moved (utf8Length (s₁ ++ w).toList)) ↔
      .finish (utf8Length s₁.toList) ∈ tokenize s₁ ∧
        ∀ t ∈ (properTokens s₁).getLast?, ¬ t.UnclosedIn s₁ := by
  have htext : (s₁ ++ w ++ s₂).toList = s₁.toList ++ (w.toList ++ s₂.toList) := by
    rw [String.toList_append, String.toList_append, List.append_assoc]
  constructor
  · intro h
    constructor
    · refine reached_of_tokens htext fun t ht => ?_
      rw [h, List.mem_append, List.mem_map] at ht
      refine ht.imp_right ?_
      rintro ⟨u, -, rfl⟩
      show utf8Length s₁.toList ≤ u.position + utf8Length (s₁ ++ w).toList
      rw [String.toList_append, utf8Length_append]
      omega
    · intro t ht
      have hproper : t ∈ properTokens s₁ := List.mem_of_mem_getLast? ht
      have hmem : t ∈ tokenize (s₁ ++ w ++ s₂) := h ▸ List.mem_append_left _ hproper
      have hmore : w.toList ++ s₂.toList ≠ [] :=
        List.append_ne_nil_of_left_ne_nil (mt String.toList_eq_nil_iff.1 hne) _
      exact not_unclosedIn_of_mem htext hmore hproper hmem
  · rintro ⟨hend, hlast⟩
    refine (lexesToEnd_of_last hend hlast).tokenize_separated hne fun c hc => ?_
    rcases hw c hc with rfl | rfl | rfl | rfl <;> rfl

/-- A string with an escaped quote at the end of a text that starts with a character of two bytes,
    in front of a text in which the lexer stops early. -/
theorem tokenize_separated_string :
    "\t\n" ≠ "" ∧ (∀ c ∈ "\t\n".toList, c = ' ' ∨ c = '\t' ∨ c = '\r' ∨ c = '\n') ∧
      .finish (utf8Length "é \"\\\"\"".toList) ∈ tokenize "é \"\\\"\"" ∧
      (∀ t ∈ (properTokens "é \"\\\"\"").getLast?, ¬ t.UnclosedIn "é \"\\\"\"") ∧
      tokenize ("é \"\\\"\"" ++ "\t\n" ++ "5 & x") =
        [⟨.word, "é", 0, 2⟩, ⟨.quoted, "\"", 3, 4⟩, ⟨.value, "5", 9, 1⟩, .finish 11] := by
  have hne : "\t\n" ≠ "" := by decide
  have hw : ∀ c ∈ "\t\n".toList, c = ' ' ∨ c = '\t' ∨ c = '\r' ∨ c = '\n' := by
    have hchars : "\t\n".toList = ['\t', '\n'] := by decide +kernel
    rw [hchars]
    simp
  have hend : .finish (utf8Length "é \"\\\"\"".toList) ∈ tokenize "é \"\\\"\"" := by
    decide +kernel
  have hproper : properTokens "é \"\\\"\"" = [⟨.word, "é", 0, 2⟩, ⟨.quoted, "\"", 3, 4⟩] := by
    decide +kernel
  have hlast : ∀ t ∈ (properTokens "é \"\\\"\"").getLast?, ¬ t.UnclosedIn "é \"\\\"\"" := by
    rw [hproper]
    rintro _ ⟨⟩ ⟨-, before, behind, hchars, hposition, hopen⟩
    -- The text can be cut behind three bytes in one way, and there the string is closed.
    have hcut : ['é', ' '] ++ ['"', '\\', '"', '"'] = before ++ '"' :: behind := by
      rw [← hchars]
      decide +kernel
    obtain ⟨-, hbehind⟩ := Text.append_inj_of_utf8Length hcut hposition
    rw [← (List.cons.inj hbehind).2] at hopen
    exact absurd hopen (by decide)
  refine ⟨hne, hw, hend, hlast, ?_⟩
  rw [(tokenize_separated_iff hne hw).2 ⟨hend, hlast⟩, hproper]
  decide +kernel

end Tapestry

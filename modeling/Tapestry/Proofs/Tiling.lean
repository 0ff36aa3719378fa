import Tapestry.Proofs.Layout

/-!
# Tokens tile their text

Every token stands for a range of characters, and the ranges follow each other in the text with
nothing but blanks between them. A step of the lexer says what it takes (`Cursor.Takes`): some
blanks, the characters of the token, and no more. What holds of all tokens of a text follows along
the steps, and the place of the end of the input is where they stop.

## Key results

- `Cursor.reading_next`: what one step takes, or why it takes nothing
- `Cursor.Steps.covered`: between the tokens of some steps there are only blanks
- `Cursor.Steps.pairwise`: the ranges of the tokens of some steps are disjoint and in order
- `tokenize_tiles`: the tokens of a text tile it up to its end, or up to a character that starts
  no token
-/

namespace Tapestry

open Text (utf8Length utf8Length_append)

/-! ## Strings -/

/-- What characters between quotes stand for: the one behind a backslash for what it means there,
    and every other one, as long as it is no quote, for itself. -/
inductive Unescapes : List Char → List Char → Prop
  | nil : Unescapes [] []
  | plain {c body text} (hq : c ≠ '"') (hb : c ≠ '\\') (h : Unescapes body text) :
    Unescapes (c :: body) (c :: text)
  | escaped {c body text} (h : Unescapes body text) :
    Unescapes ('\\' :: c :: body) (unescape c :: text)

/-- The characters of a string, its text, and what stands behind it. Without a closing quote the
    string goes on to the end of the input, where a backslash has nothing left to escape. -/
inductive InQuotes : List Char → List Char → List Char → Prop
  | closed {body text after} (h : Unescapes body text) :
    InQuotes ('"' :: (body ++ ['"'])) text after
  | unclosed {body text} (h : Unescapes body text) : InQuotes ('"' :: body) text []
  | dangling {body text} (h : Unescapes body text) :
    InQuotes ('"' :: (body ++ ['\\'])) text []

/-- How a string is read behind its opening quote. -/
private theorem exists_unescapes (cs : List Char) :
    ∃ body, Unescapes body (readQuoted cs).1 ∧
      ((∃ after, cs = body ++ '"' :: after ∧ (readQuoted cs).2 = body.length + 1) ∨
        (cs = body ∧ (readQuoted cs).2 = body.length) ∨
        (cs = body ++ ['\\'] ∧ (readQuoted cs).2 = body.length + 1)) := by
  -- The body grows at the front, so how it ends is decided where the string does.
  fun_induction readQuoted cs with
  | case1 => exact ⟨[], .nil, .inr (.inl ⟨rfl, rfl⟩)⟩
  | case2 after => exact ⟨[], .nil, .inl ⟨after, rfl, rfl⟩⟩
  | case3 => exact ⟨[], .nil, .inr (.inr ⟨rfl, rfl⟩)⟩
  | case4 c cs text n h ih =>
    obtain ⟨body, hbody, hends⟩ := ih
    rw [h] at hbody hends
    refine ⟨'\\' :: c :: body, .escaped hbody, ?_⟩
    simpa [Nat.add_assoc, Nat.add_left_inj] using hends
  | case5 c cs hq hb hb' text n h ih =>
    obtain ⟨body, hbody, hends⟩ := ih
    rw [h] at hbody hends
    have hc : c ≠ '\\' := ne_backslash hb hb'
    refine ⟨c :: body, .plain hq hc hbody, ?_⟩
    simpa using hends

/-- What is read behind an opening quote is a string. -/
private theorem inQuotes_readQuoted (cs : List Char) :
    InQuotes ('"' :: cs.take (readQuoted cs).2) (readQuoted cs).1 (cs.drop (readQuoted cs).2) := by
  obtain ⟨body, hbody, ⟨after, hcs, hn⟩ | ⟨hcs, hn⟩ | ⟨hcs, hn⟩⟩ := exists_unescapes cs
  -- The string is closed, or it stops at the end of the text, or at a last backslash.
  · have hread : cs = (body ++ ['"']) ++ after := by simp [hcs]
    have htake : cs.take (body.length + 1) = body ++ ['"'] := by
      rw [hread]
      exact List.take_left' (by simp)
    rw [hn, htake]
    exact .closed hbody
  · rw [hn, hcs, List.take_length, List.drop_length]
    exact .unclosed (hcs ▸ hbody)
  · have hlength : cs.length = body.length + 1 := by simp [hcs]
    rw [hn, ← hlength, List.take_length, List.drop_length, hcs]
    exact .dangling (hcs ▸ hbody)

/-! ## One step -/

/-- Whether characters are those of a token, in front of others: its literal, or if it is a string
    its literal in quotes. -/
structure Token.WrittenAs (t : Token) (inside after : List Char) : Prop where
  plain : t.kind ≠ .quoted → t.literal.toList = inside
  quoted : t.kind = .quoted → InQuotes inside t.literal.toList after

/-- How a token is taken at one place, which leads to another: the blanks in front of the token,
    and its own characters. -/
structure Cursor.Takes (k : Cursor) (t : Token) (k' : Cursor) (gap inside : List Char) : Prop where
  rest : k.rest = gap ++ (inside ++ k'.rest)
  blank : ∀ c ∈ gap, isBlank c = true
  ne_nil : inside ≠ []
  position : t.position = k.offset + utf8Length gap
  length : t.length = utf8Length inside
  offset : k'.offset = t.position + t.length
  written : t.WrittenAs inside k'.rest

/-- The characters that a lexeme takes are its literal, or its literal in quotes. -/
private theorem Scanned.writtenAs {c : Char} {cs : List Char} {l : Lexeme} (h : Scanned c cs l)
    (position length : Nat) :
    (Token.mk l.kind (String.ofList l.literal) position length).WrittenAs
      (c :: cs.take l.extra) (cs.drop l.extra) := by
  have htake {taken : List Char} (hp : taken <+: cs) : c :: taken = c :: cs.take taken.length :=
    congrArg (c :: ·) (List.prefix_iff_eq_take.1 hp)
  cases h with
  -- All lexemes but the strings are written as they read.
  | sign h => exact ⟨fun _ => by simp, fun hk => absurd hk (singleKind?_ne_quoted h)⟩
  | minus => exact ⟨fun _ => by simp, nofun⟩
  | quoted hc =>
    subst hc
    refine ⟨fun hk => absurd rfl hk, fun _ => ?_⟩
    rw [String.toList_ofList]
    exact inQuotes_readQuoted cs
  | word =>
    refine ⟨fun _ => ?_, nofun⟩
    rw [String.toList_ofList]
    have hp := wordTail_prefix cs
    exact htake hp
  | value =>
    refine ⟨fun _ => ?_, nofun⟩
    rw [String.toList_ofList]
    exact htake (List.takeWhile_prefix continuesValue)

namespace Cursor

/-- The characters at a place are some blanks and what comes behind them. -/
private theorem exists_gap (k : Cursor) :
    ∃ gap cs, k.rest = gap ++ cs ∧ (∀ c ∈ gap, isBlank c = true) ∧
      (∀ c ∈ cs.head?, isBlank c = false) ∧ k.next = next ⟨cs, k.offset + utf8Length gap⟩ := by
  have hgap : ∀ c ∈ k.rest.takeWhile isBlank, isBlank c = true :=
    fun c hc => List.all_eq_true.1 List.all_takeWhile c hc
  have hk : k = ⟨k.rest.takeWhile isBlank ++ k.rest.dropWhile isBlank, k.offset⟩ := by
    rw [List.takeWhile_append_dropWhile]
  refine ⟨_, _, List.takeWhile_append_dropWhile.symm, hgap, head?_dropWhile isBlank _, ?_⟩
  rw [← next_blanks hgap, ← hk]

/-- What reading at a place gives: the end of the input, behind blanks and in front of what starts
    no token, or a token that is taken. -/
inductive Reading (k : Cursor) : Token × Cursor → Prop
  | unread {gap cs} (hrest : k.rest = gap ++ cs) (hgap : ∀ c ∈ gap, isBlank c = true)
      (hnone : ∀ c cs', cs = c :: cs' → isBlank c = false ∧ Lexeme.scan? c cs' = none) :
    Reading k (.finish (k.offset + utf8Length gap), ⟨cs, k.offset + utf8Length gap⟩)
  | taken {gap inside t k'} (h : k.Takes t k' gap inside) (ht : t.kind ≠ .finish) :
    Reading k (t, k')

/-- Every place is read in one of these ways. -/
theorem reading_next (k : Cursor) : k.Reading k.next := by
  obtain ⟨gap, cs, hrest, hgap, hcs, hnext⟩ := k.exists_gap
  rw [hnext]
  -- Either nothing can be scanned behind the blanks, and then it never will be, or a lexeme is
  -- taken.
  by_cases hnone : ∀ c cs', cs = c :: cs' → Lexeme.scan? c cs' = none
  · have hunread : ∀ c cs', cs = c :: cs' → isBlank c = false ∧ Lexeme.scan? c cs' = none := by
      rintro c cs' rfl
      exact ⟨hcs c rfl, hnone c cs' rfl⟩
    rw [next_unread hunread]
    exact .unread hrest hgap hunread
  · simp only [not_forall] at hnone
    obtain ⟨c, cs, rfl, hsome⟩ := hnone
    obtain ⟨l, hscan⟩ := Option.ne_none_iff_exists'.1 hsome
    have hl := scanned_of_scan? hscan
    have hextra : l.extra = (cs.take l.extra).length :=
      (List.length_take_of_le hl.extra_le).symm
    have htaken : Lexeme.scan? c (cs.take l.extra ++ cs.drop l.extra) =
        some ⟨l.kind, l.literal, (cs.take l.extra).length⟩ := by
      rw [List.take_append_drop, ← hextra]
      exact hscan
    have hstep := next_of_scan (hcs c rfl) htaken (k.offset + utf8Length gap)
    rw [List.take_append_drop] at hstep
    have hk : k.rest = gap ++ (c :: cs.take l.extra ++ cs.drop l.extra) := by
      rw [hrest, List.cons_append, List.take_append_drop]
    rw [hstep]
    exact @Reading.taken k gap (c :: cs.take l.extra) _ _
      ⟨hk, hgap, List.cons_ne_nil _ _, rfl, rfl, rfl, hl.writtenAs _ _⟩ hl.kind_ne_finish

/-- A token other than `finish` takes blanks and its characters. -/
private theorem exists_takes {k k' : Cursor} {t : Token} (h : k.next = (t, k'))
    (ht : t.kind ≠ .finish) : ∃ gap inside, k.Takes t k' gap inside := by
  have hreading := k.reading_next
  rw [h] at hreading
  cases hreading with
  | unread => exact absurd rfl ht
  | taken h => exact ⟨_, _, h⟩

/-! ## Where the steps stop -/

/-- A character that starts no token in front of some characters starts none at all. -/
theorem scan?_eq_none {c : Char} {cs : List Char} (h : Lexeme.scan? c cs = none)
    (cs' : List Char) : Lexeme.scan? c cs' = none := by
  rw [Lexeme.scan?] at h
  split at h
  · cases h
  · next hs =>
    split at h
    · cases h
    · split at h
      · cases h
      · next hq =>
        split at h
        · cases h
        · next hw =>
          split at h
          · cases h
          · next hv =>
            rw [Bool.not_eq_true, Bool.or_eq_false_iff] at hv
            obtain ⟨hvalue, hminus⟩ := hv
            -- The minus sign starts a token either way, so this is another character.
            simp [Lexeme.scan?, hs, hq, hw, hvalue, hminus]

/-- Where reading stays at one place, it gives one token for ever. -/
private theorem take_of_next {k k' : Cursor} {t : Token} (h : k.next = (t, k'))
    (h' : k'.next = (t, k')) (n : Nat) : k.take n = List.replicate n t := by
  induction n generalizing k with
  | zero => rfl
  | succ n ih => rw [take, h, ih h', List.replicate_succ]

/-- Where no token is found there are blanks, and behind them a character that starts none, or
    nothing. No token is found there later either. -/
theorem exists_unread {k : Cursor} (h : k.next.1.kind = .finish) :
    ∃ gap cs, k.rest = gap ++ cs ∧ (∀ c ∈ gap, isBlank c = true) ∧
      (∀ c ∈ cs.head?, isBlank c = false ∧ ∀ cs', Lexeme.scan? c cs' = none) ∧
      ∀ n, k.take n = List.replicate n (.finish (k.offset + utf8Length gap)) := by
  have hreading := k.reading_next
  generalize hnext : k.next = r at h hreading
  cases hreading with
  | taken _ ht => exact absurd h ht
  | @unread gap cs hrest hgap hnone =>
    -- What was not recognised is looked at again by every later call.
    have hstay := next_unread hnone (k.offset + utf8Length gap)
    refine ⟨gap, cs, hrest, hgap, fun c hc => ?_, take_of_next hnext hstay⟩
    obtain ⟨cs', rfl⟩ := List.head?_eq_some_iff.1 hc
    obtain ⟨hblank, hscan⟩ := hnone c cs' rfl
    exact ⟨hblank, scan?_eq_none hscan⟩

/-! ## Several steps -/

namespace Steps

variable {k l : Cursor} {ts : List Token}

/-- The characters between two places, and their bytes. -/
theorem exists_read (h : Steps k ts l) :
    ∃ read, k.rest = read ++ l.rest ∧ l.offset = k.offset + utf8Length read := by
  induction h with
  | refl k => exact ⟨[], rfl, rfl⟩
  | cons hnext ht _ ih =>
    obtain ⟨gap, inside, htakes⟩ := exists_takes hnext ht
    obtain ⟨read, hrest, hoffset⟩ := ih
    refine ⟨gap ++ (inside ++ read), ?_, ?_⟩
    · simp [htakes.rest, hrest]
    · rw [hoffset, htakes.offset, htakes.position, htakes.length]
      simp only [utf8Length_append]
      omega

/-- Every step takes a character. -/
theorem length_le (h : Steps k ts l) : ts.length + l.rest.length ≤ k.rest.length := by
  induction h with
  | refl => simp
  | @cons k k' l t ts hnext ht _ ih =>
    have hlt : k'.rest.length < k.rest.length := by
      have hstep : k.next.1.kind ≠ .finish := by rwa [hnext]
      simpa only [hnext] using next_rest_lt hstep
    rw [List.length_cons]
    omega

/-- The tokens are between the two places. -/
theorem between (h : Steps k ts l) :
    k.offset ≤ l.offset ∧
      ∀ t ∈ ts, k.offset ≤ t.position ∧ t.position + t.length ≤ l.offset := by
  induction h with
  | refl k => exact ⟨Nat.le_refl _, nofun⟩
  | @cons k k' l t ts hnext ht _ ih =>
    obtain ⟨gap, inside, htakes⟩ := exists_takes hnext ht
    obtain ⟨hle, hts⟩ := ih
    have hposition := htakes.position
    have hoffset := htakes.offset
    refine ⟨by omega, List.forall_mem_cons.2 ⟨by omega, fun u hu => ?_⟩⟩
    have hbetween := hts u hu
    omega

/-- Each token ends where the next one starts, or before. -/
theorem pairwise (h : Steps k ts l) :
    ts.Pairwise fun t u => t.position + t.length ≤ u.position := by
  induction h with
  | refl => exact .nil
  | cons hnext ht hsteps ih =>
    obtain ⟨gap, inside, htakes⟩ := exists_takes hnext ht
    refine .cons (fun u hu => ?_) ih
    rw [← htakes.offset]
    exact (hsteps.between.2 u hu).1

/-- Every token stands for some of the characters. -/
theorem exists_slice (h : Steps k ts l) {t : Token} (ht : t ∈ ts) :
    ∃ before inside after, k.rest = before ++ (inside ++ after) ∧ inside ≠ [] ∧
      t.position = k.offset + utf8Length before ∧ t.length = utf8Length inside ∧
      t.WrittenAs inside after := by
  induction h with
  | refl => exact nomatch ht
  | @cons k k' l u us hnext hu _ ih =>
    -- The token is the first one, or it is further on and the first one's text counts towards its
    -- place.
    obtain ⟨gap, taken, htakes⟩ := exists_takes hnext hu
    rcases List.mem_cons.1 ht with rfl | ht
    · exact ⟨gap, taken, k'.rest, htakes.rest, htakes.ne_nil, htakes.position, htakes.length,
        htakes.written⟩
    · obtain ⟨before, inside, after, hrest, hne, hposition, hlength, hwritten⟩ := ih ht
      refine ⟨gap ++ (taken ++ before), inside, after, ?_, hne, ?_, hlength, hwritten⟩
      · simp [htakes.rest, hrest]
      · rw [hposition, htakes.offset, htakes.position, htakes.length]
        simp only [utf8Length_append]
        omega

/-- Where a list is cut in front of an element, the element is in the first of two parts or in the
    second. -/
private theorem append_eq_append_cons {α : Type} {a b before after : List α} {c : α}
    (h : a ++ b = before ++ c :: after) :
    (∃ m, a = before ++ c :: m) ∨ ∃ m, before = a ++ m ∧ b = m ++ c :: after := by
  rcases List.append_eq_append_iff.1 h with ⟨m, hbefore, hb⟩ | ⟨m, ha, hcons⟩
  · exact .inr ⟨m, hbefore, hb⟩
  · cases m with
    | nil => exact .inr ⟨[], by simp [ha], hcons.symm⟩
    | cons d m =>
      obtain ⟨rfl, -⟩ := List.cons.inj hcons
      exact .inl ⟨m, ha⟩

/-- A character before the end of the blanks behind some steps is part of a token, or a blank. -/
theorem covered (h : Steps k ts l) {gap cs : List Char} (hl : l.rest = gap ++ cs)
    (hgap : ∀ c ∈ gap, isBlank c = true) {before after : List Char} {c : Char}
    (hk : k.rest = before ++ c :: after)
    (hlt : k.offset + utf8Length before < l.offset + utf8Length gap) :
    (∃ t ∈ ts, t.position ≤ k.offset + utf8Length before ∧
        k.offset + utf8Length before + c.utf8Size ≤ t.position + t.length) ∨
      isBlank c = true := by
  induction h generalizing before with
  | refl k =>
    right
    rcases append_eq_append_cons (hl.symm.trans hk) with ⟨m, rfl⟩ | ⟨m, rfl, -⟩
    · exact hgap c (by simp)
    · rw [utf8Length_append] at hlt
      omega
  | @cons k k' l t ts hnext ht _ ih =>
    obtain ⟨skipped, inside, htakes⟩ := exists_takes hnext ht
    have hposition := htakes.position
    have hlength := htakes.length
    have hoffset := htakes.offset
    -- The character is one of the blanks in front of the token, or the token's, or behind it.
    rcases append_eq_append_cons (htakes.rest.symm.trans hk) with ⟨m, rfl⟩ | ⟨m, rfl, hrest⟩
    · exact .inr (htakes.blank c (by simp))
    · rw [utf8Length_append] at hlt ⊢
      rcases append_eq_append_cons hrest with ⟨m', rfl⟩ | ⟨m', rfl, hrest'⟩
      · rw [utf8Length_append, utf8Length] at hlength
        exact .inl ⟨t, List.mem_cons_self, by omega, by omega⟩
      · rw [utf8Length_append] at hlt ⊢
        have hplace : k.offset + (utf8Length skipped + (utf8Length inside + utf8Length m')) =
            k'.offset + utf8Length m' := by omega
        rw [hplace] at hlt ⊢
        rcases ih hl hrest' hlt with ⟨u, hu, hcovers⟩ | hblank
        · exact .inl ⟨u, List.mem_cons_of_mem t hu, hcovers⟩
        · exact .inr hblank

/-- Successive tokens are those of the steps, and then those from the last place on. -/
private theorem take_eq (h : Steps k ts l) (n : Nat) : k.take (ts.length + n) = ts ++ l.take n := by
  induction h with
  | refl => rw [List.length_nil, Nat.zero_add, List.nil_append]
  | cons hnext _ _ ih =>
    rw [List.length_cons, Nat.add_right_comm, take, hnext, ih, List.cons_append]

end Steps

end Cursor

/-! ## A whole text -/

/-- Whether a token stands for characters of a text: where they are, how long they are, and what
    they are. -/
def Token.StandsIn (t : Token) (text : String) : Prop :=
  ∃ before inside after, text.toList = before ++ (inside ++ after) ∧ inside ≠ [] ∧
    t.position = utf8Length before ∧ t.length = utf8Length inside ∧ t.WrittenAs inside after

/-- Whether tokens tile a text up to a byte: each of them stands for at least one byte of the text,
    in order and apart from the others, and there are only blanks besides. What they stop at is the
    end of the text, or a character that no token starts with. -/
structure Tiles (text : String) (ts : List Token) (stop : Nat) : Prop where
  proper : ∀ t ∈ ts, t.kind ≠ .finish
  few : ts.length ≤ text.length
  stands : ∀ t ∈ ts, 1 ≤ t.length ∧ t.position + t.length ≤ stop ∧ t.StandsIn text
  ordered : ts.Pairwise fun t u => t.position + t.length ≤ u.position
  covered : ∀ before c after, text.toList = before ++ c :: after → utf8Length before < stop →
    (∃ t ∈ ts, t.position ≤ utf8Length before ∧
      utf8Length before + c.utf8Size ≤ t.position + t.length) ∨
    c = ' ' ∨ c = '\t' ∨ c = '\r' ∨ c = '\n'
  stops : stop = utf8Length text.toList ∨
    ∃ before c after, text.toList = before ++ c :: after ∧ stop = utf8Length before ∧
      isBlank c = false ∧ ∀ cs, Lexeme.scan? c cs = none

/-- The tokens of a text are some that tile it and then the end of the input, where they stop. It is
    answered at the same place for ever. -/
theorem tokenize_tiles (text : String) :
    ∃ ts stop, tokenize text = ts ++ [.finish stop] ∧ Tiles text ts stop ∧
      ∀ n, (Cursor.ofText text).take (ts.length + n) =
        ts ++ List.replicate n (.finish stop) := by
  obtain ⟨ts, l, hsteps, hfin, htokens⟩ := (Cursor.ofText text).exists_steps
  obtain ⟨gap, cs, hrest, hgap, hunread, hforever⟩ := Cursor.exists_unread hfin
  obtain ⟨read, hread, hoffset⟩ := hsteps.exists_read
  have hstart : (Cursor.ofText text).rest = text.toList := rfl
  have hzero : (Cursor.ofText text).offset = 0 := rfl
  rw [hzero, Nat.zero_add] at hoffset
  -- The end of the input stands behind what was read and the blanks that follow.
  have hstop : l.offset + utf8Length gap = utf8Length (read ++ gap) := by
    rw [hoffset, utf8Length_append]
  have htext : text.toList = (read ++ gap) ++ cs := by
    rw [← hstart, hread, hrest, List.append_assoc]
  have hfinish : l.next.1 = .finish (l.offset + utf8Length gap) := by
    simpa [Cursor.take] using hforever 1
  refine ⟨ts, l.offset + utf8Length gap, by rw [tokenize, htokens, hfinish], ?_, fun n => by
    rw [hsteps.take_eq, hforever]⟩
  constructor
  case proper => exact hsteps.kind_ne_finish
  case few =>
    have hle := hsteps.length_le
    rw [hstart, String.length_toList] at hle
    omega
  case stands =>
    intro t ht
    obtain ⟨before, inside, after, hslice, hne, hposition, hlength, hwritten⟩ :=
      hsteps.exists_slice ht
    have hbetween := hsteps.between.2 t ht
    rw [hzero, Nat.zero_add] at hposition
    have hpos : 1 ≤ t.length := by
      rw [hlength]
      exact Text.utf8Length_pos hne
    exact ⟨hpos, by omega, before, inside, after, hslice, hne, hposition, hlength, hwritten⟩
  case ordered => exact hsteps.pairwise
  case covered =>
    intro before c after hc hlt
    have hcovered := hsteps.covered hrest hgap hc (by omega)
    rw [hzero, Nat.zero_add] at hcovered
    refine hcovered.imp_right fun hblank => ?_
    simp only [isBlank, Bool.or_eq_true, beq_iff_eq] at hblank
    tauto
  case stops =>
    cases cs with
    | nil =>
      left
      rw [hstop, htext, List.append_nil]
    | cons c cs =>
      obtain ⟨hc, hnone⟩ := hunread c rfl
      exact .inr ⟨read ++ gap, c, cs, htext, hstop, hc, hnone⟩

end Tapestry

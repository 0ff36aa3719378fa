import Mathlib.Data.List.Forall2
import Tapestry.Proofs.Spelling
import Tapestry.Proofs.Trimming

/-!
# The layout of a text

A text is some blanks, then pieces, each of them the characters of one token and the blanks behind
it, and at the end what no token starts with. `layout` takes a text apart in this way. Another
layout is a respacing when it has the same pieces with other blanks, where blanks stay between
pieces that had some, and nothing comes behind a string without a closing quote.

How far a token goes is decided by at most two characters behind it, and respacing changes them into
blanks if at all. So every piece of a respaced text is read as before.

## Key results

- `text_layout`, `spaced_layout`, `spans_layout`: the layout of a text has its characters, blanks
  between its pieces, and a piece at the place of every token
- `Scanned.follows`: a lexeme is read again when other characters follow it
- `Reads.respaced`: respaced pieces are read as the same lexemes
- `Layout.Respaced.tokens`: a respaced text has the tokens of the text
-/

namespace Tapestry

open Text (utf8Length utf8Length_append isAlphanumeric)

/-! ## Layouts -/

/-- The characters of one token, of which there is at least one, and the blanks behind it. -/
structure Piece where
  first : Char
  more : List Char
  gap : List Char
  deriving DecidableEq, Repr

/-- The characters of pieces, and those behind them. -/
def charsOf : List Piece → List Char → List Char
  | [], unread => unread
  | p :: ps, unread => p.first :: (p.more ++ (p.gap ++ charsOf ps unread))

/-- A text taken apart: blanks, pieces, and what no token starts with. -/
structure Layout where
  lead : List Char
  pieces : List Piece
  unread : List Char
  deriving DecidableEq, Repr

/-- The text with a layout. -/
def Layout.text (l : Layout) : String := String.ofList (l.lead ++ charsOf l.pieces l.unread)

/-- The places and lengths of pieces in bytes, where the first one is at a given place. -/
def spansFrom (o : Nat) : List Piece → List (Nat × Nat)
  | [] => []
  | p :: ps =>
    let n := utf8Length (p.first :: p.more)
    (o, n) :: spansFrom (o + n + utf8Length p.gap) ps

/-- The places and lengths of the pieces of a layout. -/
def Layout.spans (l : Layout) : List (Nat × Nat) := spansFrom (utf8Length l.lead) l.pieces

/-- Whether there are only blanks before and behind the pieces of a layout, and all of them up to
    what no token starts with. -/
structure Layout.Spaced (l : Layout) : Prop where
  lead : ∀ c ∈ l.lead, isBlank c = true
  gaps : ∀ p ∈ l.pieces, ∀ c ∈ p.gap, isBlank c = true
  unread : ∀ c ∈ l.unread.head?, isBlank c = false

/-- The pieces of characters that do not start with a blank, and what no token starts with. -/
def piecesOf (cs : List Char) : List Piece × List Char :=
  match cs with
  | [] => ([], [])
  | c :: cs =>
    match Lexeme.scan? c cs with
    | none => ([], c :: cs)
    | some l =>
      let behind := cs.drop l.extra
      let rest := piecesOf (behind.dropWhile isBlank)
      (⟨c, cs.take l.extra, behind.takeWhile isBlank⟩ :: rest.1, rest.2)
termination_by cs.length
decreasing_by
  have hle := (List.dropWhile_suffix (l := cs.drop l.extra) isBlank).length_le
  rw [List.length_drop] at hle
  rw [List.length_cons]
  omega

/-- The layout of a text. -/
def layout (text : String) : Layout :=
  let rest := piecesOf (text.toList.dropWhile isBlank)
  ⟨text.toList.takeWhile isBlank, rest.1, rest.2⟩

/-- Whether the characters after an opening quote contain the closing one. -/
def closesQuote : List Char → Bool
  | [] => false
  | '"' :: _ => true
  | ['\\'] => false
  | '\\' :: _ :: cs => closesQuote cs
  | _ :: cs => closesQuote cs

/-- Whether a piece is a string without a closing quote. -/
def Piece.Unterminated (p : Piece) : Prop := p.first = '"' ∧ closesQuote p.more = false

/-- Whether a piece has other blanks behind it: some if there were some, and none behind a string
    without a closing quote. -/
structure Piece.Respaced (p p' : Piece) : Prop where
  first : p'.first = p.first
  more : p'.more = p.more
  blank : ∀ c ∈ p'.gap, isBlank c = true
  apart : p.gap ≠ [] → p'.gap ≠ []
  last : p.Unterminated → p'.gap = []

/-- Whether a layout has other blanks than another one. -/
structure Layout.Respaced (l l' : Layout) : Prop where
  lead : ∀ c ∈ l'.lead, isBlank c = true
  pieces : List.Forall₂ Piece.Respaced l.pieces l'.pieces
  unread : l'.unread = l.unread

/-! ## Lexemes -/

/-- What a lexeme is, given its first character and those after it. -/
inductive Scanned (c : Char) (cs : List Char) : Lexeme → Prop
  | sign {kind} (h : singleKind? c = some kind) : Scanned c cs ⟨kind, [c], 0⟩
  | minus (hc : c = '-') (h : startsNumber cs = false) : Scanned c cs ⟨.operator .sub, [c], 0⟩
  | quoted (hc : c = '"') : Scanned c cs ⟨.quoted, (readQuoted cs).1, (readQuoted cs).2⟩
  | word (h : startsWord c = true) : Scanned c cs ⟨.word, c :: wordTail cs, (wordTail cs).length⟩
  | value (h : StartsValue c cs) :
    Scanned c cs ⟨.value, c :: cs.takeWhile continuesValue, (cs.takeWhile continuesValue).length⟩

/-- What is read is a sign, a string, a word or a value. -/
theorem scanned_of_scan? {c : Char} {cs : List Char} {l : Lexeme}
    (h : Lexeme.scan? c cs = some l) : Scanned c cs l := by
  by_cases hk : l.kind = .word ∨ l.kind = .value
  -- Words and values are read back by inversion; the branches left are the signs, the minus sign
  -- and the strings.
  · rcases scan?_inv h hk with ⟨hw, rfl⟩ | ⟨hv, rfl⟩
    · exact .word hw
    · exact .value hv
  · rw [Lexeme.scan?] at h
    split at h
    · next hs =>
      cases h
      exact .sign hs
    · split at h
      · next hm =>
        cases h
        simp only [Bool.and_eq_true, beq_iff_eq, Bool.not_eq_true'] at hm
        exact .minus hm.1 hm.2
      · split at h
        · next hq =>
          cases h
          exact .quoted (by simpa using hq)
        · split at h
          · cases h
            simp at hk
          · split at h
            · cases h
              simp at hk
            · cases h

/-- What a lexeme is, is read. -/
theorem Scanned.scan? {c : Char} {cs : List Char} {l : Lexeme} (h : Scanned c cs l) :
    Lexeme.scan? c cs = some l := by
  cases h with
  | sign h => rw [Lexeme.scan?, h]
  | minus hc h =>
    subst hc
    simp [Lexeme.scan?, singleKind?, h]
  | quoted hc =>
    subst hc
    rfl
  | word h => exact (scan?_of_startsWord h cs).2
  | value h => exact scan?_of_startsValue h

/-- A quoted text takes no more characters than there are. -/
private theorem readQuoted_le (cs : List Char) : (readQuoted cs).2 ≤ cs.length := by
  fun_induction readQuoted cs with
  | case1 => exact Nat.le_refl _
  | case2 => simp
  | case3 => simp
  | case4 c cs text n h ih =>
    rw [h] at ih
    simp only [List.length_cons] at ih ⊢
    omega
  | case5 c cs _ _ _ text n h ih =>
    rw [h] at ih
    simp only [List.length_cons] at ih ⊢
    omega

variable {c : Char} {cs more rest rest' : List Char} {l : Lexeme}

/-- A lexeme takes no more characters than there are. -/
theorem Scanned.extra_le (h : Scanned c cs l) : l.extra ≤ cs.length := by
  cases h with
  | sign | minus => exact Nat.zero_le _
  | quoted => exact readQuoted_le cs
  | word =>
    have hp := wordTail_prefix cs
    exact hp.length_le
  | value => exact (List.takeWhile_prefix _).length_le

/-- What is scanned is no end of the input. -/
theorem Scanned.kind_ne_finish (h : Scanned c cs l) : l.kind ≠ .finish := by
  cases h with
  | sign h => exact (singleKind?_eq_some h).2.1
  | minus | quoted | word | value => exact nofun

/-! ## What follows a lexeme -/

/-- A backslash stands either last or in front of another character. -/
theorem ne_backslash (h : c = '\\' → cs = [] → False)
    (h' : ∀ d ds, c = '\\' → cs = d :: ds → False) : c ≠ '\\' := by
  intro hc
  cases cs with
  | nil => exact h hc rfl
  | cons d ds => exact h' d ds hc rfl

/-- A character that is neither a quote nor a backslash closes nothing. -/
theorem closesQuote_plain (hq : c ≠ '"') (hb : c ≠ '\\') (cs : List Char) :
    closesQuote (c :: cs) = closesQuote cs := by
  rw [closesQuote]
  · exact fun hquote => hq hquote
  · exact fun hquote => absurd hquote hb
  · exact fun _ _ hquote => absurd hquote hb

/-- A string that is closed is read whatever follows it. -/
theorem readQuoted_append (h : closesQuote more = true) :
    readQuoted (more ++ rest) = readQuoted more := by
  fun_induction closesQuote more with
  | case1 => cases h
  | case2 cs => rfl
  | case3 => cases h
  | case4 c cs ih => simp only [List.cons_append, readQuoted, ih h]
  | case5 c cs hq hb hb' ih =>
    have hc : c ≠ '\\' := ne_backslash hb hb'
    rw [List.cons_append, readQuoted_plain hq hc, readQuoted_plain hq hc, ih h]

/-- Where there are characters, at least one is taken. -/
private theorem eq_nil_of_readQuoted_eq_zero (h : (readQuoted cs).2 = 0) : cs = [] := by
  fun_cases readQuoted cs with
  | case1 => rfl
  | case2 | case3 => simp [readQuoted] at h
  | case4 | case5 => simp_all [readQuoted]

/-- A string that is not closed goes on to the end of the text. -/
theorem eq_nil_of_readQuoted (h : closesQuote more = false)
    (hlength : (readQuoted (more ++ rest)).2 = more.length) : rest = [] := by
  fun_induction closesQuote more with
  -- A string that was not closed ends at the end of the text, so what is taken is all there was.
  | case1 => exact eq_nil_of_readQuoted_eq_zero hlength
  | case2 cs => cases h
  | case3 =>
    cases rest with
    | nil => rfl
    | cons c cs => simp [readQuoted] at hlength
  | case4 c cs ih =>
    simp only [List.cons_append, readQuoted, List.length_cons] at hlength
    exact ih h (by omega)
  | case5 c cs hq hb hb' ih =>
    have hc : c ≠ '\\' := ne_backslash hb hb'
    rw [List.cons_append, readQuoted_plain hq hc, List.length_cons] at hlength
    exact ih h (by omega)

/-- Whether characters may stand for others behind a lexeme: they start with a blank, if at all, or
    they start in the same way and no word goes on with them that did not go on before. -/
def Follows (rest rest' : List Char) : Prop :=
  (∀ d ∈ rest'.head?, isBlank d = true) ∨
    rest'.head? = rest.head? ∧ (wordTail rest = [] → wordTail rest' = [])

/-- No value and no word goes on with a blank. -/
theorem continuesValue_of_isBlank (h : isBlank c = true) : continuesValue c = false ∧ c ≠ '_' := by
  simp only [isBlank, Bool.or_eq_true, beq_iff_eq] at h
  rcases h with ((rfl | rfl) | rfl) | rfl
  · decide
  · decide
  · decide
  · decide

/-- The characters that start a number continue a value. -/
theorem continuesValue_of_startsNumber (h : (c.isDigit || c == '.') = true) :
    continuesValue c = true := by
  rw [Bool.or_eq_true] at h
  rcases h with hdigit | hdot
  · have hascii : c.toNat < 0x80 := by
      simp only [Char.isDigit, Bool.and_eq_true, decide_eq_true_eq, ge_iff_le,
        UInt32.le_iff_toNat_le] at hdigit
      have hlast : c.val.toNat ≤ 57 := hdigit.2
      change c.val.toNat < 0x80
      omega
    simp [continuesValue, Text.isAlphanumeric_of_lt hascii, hdigit]
  · simp [continuesValue, hdot]

/-- Where no value goes on, no number starts. -/
theorem startsNumber_of_continuesValue (h : continuesValue c = false) :
    (c.isDigit || c == '.') = false := by
  rw [← Bool.not_eq_true]
  intro hnumber
  exact Bool.false_ne_true (h.symm.trans (continuesValue_of_startsNumber hnumber))

/-- A number begins with a digit or with a dot. -/
theorem startsNumber_eq_false_iff :
    startsNumber cs = false ↔ ∀ d ∈ cs.head?, (d.isDigit || d == '.') = false := by
  cases cs with
  | nil => simp [startsNumber]
  | cons d cs => simp [startsNumber]

/-- Nothing is taken when the first character is not. -/
private theorem takeWhile_eq_nil_iff_head? {p : Char → Bool} :
    cs.takeWhile p = [] ↔ ∀ d ∈ cs.head?, p d = false := by
  cases cs with
  | nil => simp
  | cons d cs =>
    by_cases hd : p d = true
    · simp [hd]
    · simp [hd]

namespace Follows

/-- What does not go on with the first character before does not do so now. -/
theorem head (h : Follows rest rest') {p : Char → Bool} (hp : ∀ d, isBlank d = true → p d = false)
    (hrest : ∀ d ∈ rest.head?, p d = false) : ∀ d ∈ rest'.head?, p d = false := by
  intro d hd
  rcases h with hblank | ⟨hsame, -⟩
  · exact hp d (hblank d hd)
  · exact hrest d (hsame ▸ hd)

/-- Whether a number begins does not change with what may follow, as long as none began there
    before. -/
private theorem startsNumber_eq (h : Follows rest rest') (hrest : startsNumber rest = false) :
    startsNumber rest' = false := by
  rw [startsNumber_eq_false_iff] at hrest ⊢
  exact h.head (fun d hd => startsNumber_of_continuesValue (continuesValue_of_isBlank hd).1) hrest

/-- A value that stops before the first character still does. -/
private theorem takeWhile_eq (h : Follows rest rest')
    (hmore : (more ++ rest).takeWhile continuesValue = more) :
    (more ++ rest').takeWhile continuesValue = more := by
  have hall : ∀ d ∈ more, continuesValue d = true := by
    rw [← hmore]
    exact fun d hd => List.all_eq_true.1 List.all_takeWhile d hd
  -- All of `more` goes on with the value, so only what is behind it can make a difference.
  rw [List.takeWhile_append_of_pos hall] at hmore ⊢
  have hrest : rest.takeWhile continuesValue = [] := by simpa using hmore
  have hrest' : rest'.takeWhile continuesValue = [] := by
    rw [takeWhile_eq_nil_iff_head?] at hrest ⊢
    exact h.head (fun d hd => (continuesValue_of_isBlank hd).1) hrest
  rw [hrest', List.append_nil]

/-- A word that stops before the first character still does. -/
private theorem wordTail_eq (h : Follows rest rest') (hmore : wordTail (more ++ rest) = more) :
    wordTail (more ++ rest') = more := by
  rcases h with hblank | ⟨hsame, htail⟩
  · have hself : wordTail more = more := by
      have hagain := wordTail_wordTail (more ++ rest)
      rwa [hmore] at hagain
    rw [wordTail_append fun d hd => continuesValue_of_isBlank (hblank d hd), hself]
  · induction more with
    | nil => exact htail hmore
    | cons d more ih =>
      -- The character behind this one is the same, so this one is taken for the same reason.
      have hhead : (more ++ rest').head? = (more ++ rest).head? := by
        cases more with
        | nil => exact hsame
        | cons => rfl
      rw [List.cons_append, wordTail] at hmore ⊢
      rw [hhead]
      split at hmore
      · next hd => rw [if_pos hd, ih (List.cons.inj hmore).2]
      · next hd =>
        split at hmore
        · next hdot => rw [if_neg hd, if_pos hdot, ih (List.cons.inj hmore).2]
        · cases hmore

end Follows

/-- What is taken from the front of some characters is what stands there, when it is as long. -/
theorem eq_of_prefix_append {taken : List Char} (h : taken <+: more ++ rest)
    (hlength : taken.length = more.length) : taken = more := by
  have hle : taken.length ≤ more.length := Nat.le_of_eq hlength
  have hp := List.prefix_of_prefix_length_le h (List.prefix_append more rest) hle
  exact hp.eq_of_length hlength

/-- A value still starts whatever follows the characters that it takes. -/
theorem StartsValue.follows (h : StartsValue c (more ++ rest))
    (htaken : (more ++ rest).takeWhile continuesValue = more) (rest' : List Char) :
    StartsValue c (more ++ rest') := by
  obtain ⟨hs, hm, hq, hw, hv⟩ := h
  refine ⟨hs, ?_, hq, hw, hv⟩
  cases more with
  | nil =>
    -- The value is its first character alone, and a minus sign would take a number with it.
    have hnumber : startsNumber rest = false := by
      rw [List.nil_append, takeWhile_eq_nil_iff_head?] at htaken
      rw [startsNumber_eq_false_iff]
      exact fun d hd => startsNumber_of_continuesValue (htaken d hd)
    have hminus : (c == '-') = false := by simpa [hnumber] using hm
    rw [hminus, Bool.false_and]
  | cons d more => exact hm

/-- A lexeme that takes certain characters takes them again when others follow, unless it is a
    string without a closing quote: that has to be the last. -/
theorem Scanned.follows (h : Scanned c (more ++ rest) l) (hl : l.extra = more.length)
    (hrest : Follows rest rest')
    (hlast : c = '"' → closesQuote more = false → rest = [] → rest' = []) :
    -- The new rest changes nothing for a sign; for the others what was taken has to end where it
    -- did.
    Scanned c (more ++ rest') l := by
  cases h with
  | sign h => exact .sign h
  | minus hc h =>
    -- A minus sign is one for as long as no number starts behind it.
    obtain rfl := List.eq_nil_of_length_eq_zero hl.symm
    exact .minus hc (hrest.startsNumber_eq h)
  | quoted hc =>
    have hsame : readQuoted (more ++ rest') = readQuoted (more ++ rest) := by
      -- A closed string does not look behind its quote; an open one has nothing behind it.
      cases hclosed : closesQuote more with
      | true => rw [readQuoted_append hclosed, readQuoted_append hclosed]
      | false =>
        have hnil := eq_nil_of_readQuoted hclosed hl
        rw [hlast hc hclosed hnil, hnil]
    rw [← hsame]
    exact .quoted hc
  | word h =>
    have hp := wordTail_prefix (more ++ rest)
    have htaken := eq_of_prefix_append hp hl
    have hword : Scanned c (more ++ rest') _ := .word h
    rw [hrest.wordTail_eq htaken] at hword
    rwa [htaken]
  | value h =>
    have hp := List.takeWhile_prefix (l := more ++ rest) continuesValue
    have htaken := eq_of_prefix_append hp hl
    have hvalue : Scanned c (more ++ rest') _ := .value (h.follows htaken rest')
    rw [hrest.takeWhile_eq htaken] at hvalue
    rwa [htaken]

/-! ## Reading pieces -/

/-- What pieces are read as, in front of characters that no token starts with. -/
inductive Reads (unread : List Char) : List Piece → List Lexeme → Prop
  | done (h : ∀ c cs, unread = c :: cs → isBlank c = false ∧ Lexeme.scan? c cs = none) :
    Reads unread [] []
  | piece {p ps l ls} (hscan : Scanned p.first (p.more ++ (p.gap ++ charsOf ps unread)) l)
    (hextra : l.extra = p.more.length) (hgap : ∀ c ∈ p.gap, isBlank c = true)
    (h : Reads unread ps ls) : Reads unread (p :: ps) (l :: ls)

variable {unread : List Char} {p p' : Piece} {ps ps' : List Piece} {ls : List Lexeme}

/-- No lexeme starts with a blank. -/
theorem Scanned.isBlank_eq_false (h : Scanned c cs l) : isBlank c = false := by
  cases h with
  | sign h => exact (singleKind?_eq_some h).1
  | minus hc => rw [hc]; decide
  | quoted hc => rw [hc]; decide
  | word h => exact (scan?_of_startsWord h cs).1
  | value h =>
    have hgoes : continuesValue c = true := by
      -- Each character that starts a value also continues one, and a blank does not.
      have hstarts := h.2.2.2.2
      simp only [startsValue, Bool.or_eq_true (_ || _)] at hstarts
      rcases hstarts with (hnumber | hsharp) | hminus
      · exact continuesValue_of_startsNumber hnumber
      · simp [continuesValue, hsharp]
      · simp [continuesValue, hminus]
    rw [← Bool.not_eq_true]
    intro hc
    exact Bool.false_ne_true ((continuesValue_of_isBlank hc).1.symm.trans hgoes)

/-- The pieces of characters are read, and they are these characters. -/
private theorem reads_piecesOf {cs : List Char} (h : ∀ c ∈ cs.head?, isBlank c = false) :
    (∃ ls, Reads (piecesOf cs).2 (piecesOf cs).1 ls) ∧
      charsOf (piecesOf cs).1 (piecesOf cs).2 = cs := by
  fun_induction piecesOf cs with
  | case1 => exact ⟨⟨[], .done nofun⟩, rfl⟩
  | case2 c cs hnone =>
    refine ⟨⟨[], .done ?_⟩, rfl⟩
    rintro _ _ ⟨⟩
    exact ⟨h c rfl, hnone⟩
  | case3 c cs l hl behind rest ih =>
    obtain ⟨⟨ls, hls⟩, hchars⟩ := ih (head?_dropWhile isBlank behind)
    have hscan := scanned_of_scan? hl
    -- Behind the lexeme stand its blanks, and behind these the other pieces.
    have hbehind : behind.takeWhile isBlank ++ charsOf rest.1 rest.2 = behind := by
      rw [hchars, List.takeWhile_append_dropWhile]
    have hcs : cs.take l.extra ++ (behind.takeWhile isBlank ++ charsOf rest.1 rest.2) = cs := by
      rw [hbehind, List.take_append_drop]
    refine ⟨⟨l :: ls, .piece (hcs.symm ▸ hscan) ?_ ?_ hls⟩, ?_⟩
    · exact (List.length_take_of_le hscan.extra_le).symm
    · exact fun d hd => List.all_eq_true.1 List.all_takeWhile d hd
    · rw [charsOf, hcs]

/-! ## Other blanks -/

/-- A dot before nothing that goes on with a word does so before a blank too. -/
theorem wordTail_cons_eq_nil (h : wordTail (c :: rest) = [])
    (hrest : (∀ d ∈ rest'.head?, isBlank d = true) ∨ rest'.head? = rest.head?) :
    wordTail (c :: rest') = [] := by
  have hhead : rest.head?.any isAlphanumeric = false → rest'.head?.any isAlphanumeric = false := by
    intro hnone
    rcases hrest with hblank | hsame
    · cases rest' with
      | nil => rfl
      | cons d rest' =>
        have hd := (continuesValue_of_isBlank (hblank d rfl)).1
        simp only [continuesValue, Bool.or_eq_false_iff] at hd
        exact hd.1.1.1
    · rw [hsame, hnone]
  -- The first character is no letter, and if it is a dot then no letter comes behind it.
  rw [wordTail] at h ⊢
  split at h
  · cases h
  · next hc =>
    split at h
    · cases h
    · next hdot =>
      rw [if_neg hc, if_neg]
      simp only [Bool.and_eq_true, not_and, Bool.not_eq_true] at hdot ⊢
      exact fun hc => hhead (hdot hc)

namespace Piece.Respaced

/-- There are no blanks behind a respaced piece and there were none, or a blank comes first. -/
private theorem gap_cases (h : p.Respaced p') :
    p.gap = [] ∧ p'.gap = [] ∨ ∀ cs, ∀ d ∈ (p'.gap ++ cs).head?, isBlank d = true := by
  by_cases hgap : p'.gap = []
  · left
    by_contra hne
    exact h.apart (fun hbefore => hne ⟨hbefore, hgap⟩) hgap
  · right
    intro cs d hd
    rw [List.head?_append_of_ne_nil _ hgap] at hd
    exact h.blank d (List.mem_of_mem_head? hd)

/-- The first character of respaced pieces is the one before. -/
theorem head?_charsOf (h : List.Forall₂ Respaced ps ps') :
    (charsOf ps' unread).head? = (charsOf ps unread).head? := by
  cases h with
  | nil => rfl
  | cons hp => exact congrArg some hp.first

/-- Behind a respaced piece stands a blank, or the character from before. -/
private theorem head?_behind (hp : p.Respaced p') (h : List.Forall₂ Respaced ps ps') :
    (∀ d ∈ (p'.gap ++ charsOf ps' unread).head?, isBlank d = true) ∨
      (p'.gap ++ charsOf ps' unread).head? = (p.gap ++ charsOf ps unread).head? := by
  rcases hp.gap_cases with ⟨hnone, hnone'⟩ | hblank
  · rw [hnone, hnone']
    exact .inr (head?_charsOf h)
  · exact .inl (hblank _)

/-- What stands behind a respaced piece may stand for what stood there before. -/
theorem follows (hp : p.Respaced p') (h : List.Forall₂ Respaced ps ps') :
    Follows (p.gap ++ charsOf ps unread) (p'.gap ++ charsOf ps' unread) := by
  rcases hp.gap_cases with ⟨hnone, hnone'⟩ | hblank
  · rw [hnone, hnone']
    refine .inr ⟨head?_charsOf h, ?_⟩
    -- Only a dot with nothing behind it in its own piece depends on what stands behind that piece.
    cases h with
    | nil => exact id
    | @cons q q' qs qs' hq hqs =>
      intro hstops
      rw [List.nil_append, charsOf, hq.first]
      apply wordTail_cons_eq_nil hstops
      rw [hq.more]
      cases q.more with
      | nil => exact hq.head?_behind hqs
      | cons => exact .inr rfl
  · exact .inl (hblank _)

end Piece.Respaced

/-- Respaced pieces are read as before. -/
theorem Reads.respaced (h : Reads unread ps ls) (hps : List.Forall₂ Piece.Respaced ps ps') :
    Reads unread ps' ls := by
  induction h generalizing ps' with
  | done h =>
    cases hps
    exact .done h
  | @piece p ps l ls hscan hextra hgap _ ih =>
    cases hps with
    | @cons _ p' _ ps' hp hps =>
      rw [← hp.more] at hextra
      refine .piece ?_ hextra hp.blank (ih hps)
      rw [hp.first]
      rw [← hp.more] at hscan
      apply hscan.follows hextra (hp.follows hps)
      -- Behind a string that is not closed there was no piece, and no blank may come there.
      intro hfirst hopen hnil
      obtain ⟨-, hnone⟩ := List.append_eq_nil_iff.1 hnil
      rw [hp.last ⟨hfirst, hp.more ▸ hopen⟩, List.nil_append]
      cases hps with
      | nil => exact hnone
      | cons => cases hnone

/-! ## The tokens of a layout -/

/-- Blanks are skipped. -/
theorem Cursor.next_blanks {gap : List Char} (h : ∀ c ∈ gap, isBlank c = true) (cs : List Char)
    (o : Nat) : next ⟨gap ++ cs, o⟩ = next ⟨cs, o + utf8Length gap⟩ := by
  induction gap generalizing o with
  | nil => rfl
  | cons c gap ih =>
    rw [List.cons_append, next_blank (h c List.mem_cons_self),
      ih (fun d hd => h d (List.mem_cons_of_mem c hd)), utf8Length, Nat.add_assoc]

/-- Where no token starts the end of the input is answered, and reading stays there. -/
theorem Cursor.next_unread {unread : List Char}
    (h : ∀ c cs, unread = c :: cs → isBlank c = false ∧ Lexeme.scan? c cs = none) (o : Nat) :
    next ⟨unread, o⟩ = (.finish o, ⟨unread, o⟩) := by
  cases unread with
  | nil => rfl
  | cons c cs =>
    obtain ⟨hc, hnone⟩ := h c cs rfl
    simp [next, skipBlanks, advance, read, hc, hnone, utf8Length]

/-- Where a token is in the source and how long it is, in bytes. -/
def Token.extent (t : Token) : Nat × Nat := (t.position, t.length)

/-- What a lexeme is as a token, apart from its place in the source. -/
def Lexeme.form (l : Lexeme) : TokenKind × String := (l.kind, String.ofList l.literal)

/-- Behind blanks, the tokens of pieces are what the pieces are read as, and stand where the pieces
    do. The end of the input follows, in front of what is not read. -/
theorem Reads.steps (h : Reads unread ps ls) {gap : List Char}
    (hgap : ∀ c ∈ gap, isBlank c = true) (o : Nat) :
    ∃ ts k q, Cursor.Steps ⟨gap ++ charsOf ps unread, o⟩ ts k ∧ k.next.1 = .finish q ∧
      ts.map Token.form = ls.map Lexeme.form ∧
      ts.map Token.extent = spansFrom (o + utf8Length gap) ps ∧
      q + utf8Length unread = o + utf8Length (gap ++ charsOf ps unread) := by
  induction h generalizing gap o with
  | done h =>
    refine ⟨[], _, o + utf8Length gap, .refl _, ?_, rfl, rfl, ?_⟩
    · rw [Cursor.next_blanks hgap, charsOf, Cursor.next_unread h]
    · rw [charsOf, utf8Length_append, Nat.add_assoc]
  | @piece p ps l ls hscan hextra hgap' _ ih =>
    obtain ⟨kind, literal, extra⟩ := l
    cases hextra
    -- The lexeme takes all of its piece, so the blanks of the piece come next.
    have hnext := Cursor.next_of_scan hscan.isBlank_eq_false hscan.scan?
      (o + utf8Length gap)
    rw [← Cursor.next_blanks hgap] at hnext
    obtain ⟨ts, k, q, hsteps, hq, hforms, hspans, hend⟩ :=
      ih hgap' (o + utf8Length gap + utf8Length (p.first :: p.more))
    refine ⟨_ :: ts, k, q, .cons hnext hscan.kind_ne_finish hsteps, hq, ?_, ?_, ?_⟩
    · rw [List.map_cons, hforms]
      rfl
    · rw [List.map_cons, hspans]
      rfl
    · simp only [charsOf, utf8Length, utf8Length_append] at hend ⊢
      omega

/-- The tokens of a layout whose pieces are read. -/
theorem Reads.tokens {l : Layout} (h : Reads l.unread l.pieces ls)
    (hlead : ∀ c ∈ l.lead, isBlank c = true) :
    (tokenize l.text).map Token.form = ls.map Lexeme.form ++ [(.finish, "")] ∧
      (properTokens l.text).map Token.extent = l.spans ∧
      ∃ q, tokenize l.text = properTokens l.text ++ [.finish q] ∧
        q + utf8Length l.unread = utf8Length l.text.toList := by
  obtain ⟨ts, k, q, hsteps, hq, hforms, hspans, hend⟩ := h.steps hlead 0
  have htext : l.text.toList = l.lead ++ charsOf l.pieces l.unread := by
    rw [Layout.text, String.toList_ofList]
  have hstart : Cursor.ofText l.text = ⟨l.lead ++ charsOf l.pieces l.unread, 0⟩ := by
    rw [Cursor.ofText, htext]
  -- The reading steps start at the first character and end where nothing more can be read.
  rw [← hstart] at hsteps
  obtain ⟨hproper, htokens⟩ := hsteps.properTokens_eq (hq ▸ rfl)
  rw [Nat.zero_add] at hspans
  refine ⟨?_, ?_, q, ?_, ?_⟩
  · rw [htokens, hq, List.map_append, hforms]
    rfl
  · rw [hproper, hspans]
    rfl
  · rw [htokens, hproper, hq]
  · rw [htext, hend, Nat.zero_add]

/-- The pieces of the layout of a text are read. -/
theorem reads_layout (text : String) :
    ∃ ls, Reads (layout text).unread (layout text).pieces ls :=
  (reads_piecesOf (head?_dropWhile isBlank text.toList)).1

/-- The layout of a text has its characters. -/
theorem text_layout (text : String) : (layout text).text = text := by
  have hchars := (reads_piecesOf (head?_dropWhile isBlank text.toList)).2
  rw [Layout.text, layout, hchars, List.takeWhile_append_dropWhile, String.ofList_toList]

/-- A text is what comes before its first token, its tokens with the gaps behind them, and what is
    not read. -/
theorem toList_layout (text : String) :
    text.toList = (layout text).lead ++ charsOf (layout text).pieces (layout text).unread := by
  rw [← String.toList_ofList (l := (layout text).lead ++ _), ← Layout.text, text_layout]

/-- The blanks of pieces that are read are all behind them. -/
theorem Reads.blanks (h : Reads unread ps ls) :
    (∀ p ∈ ps, ∀ c ∈ p.gap, isBlank c = true) ∧ ∀ c ∈ unread.head?, isBlank c = false := by
  induction h with
  | done h =>
    refine ⟨nofun, fun c hc => ?_⟩
    obtain ⟨cs, hcs⟩ := List.head?_eq_some_iff.1 hc
    exact (h c cs hcs).1
  | piece _ _ hgap _ ih => exact ⟨List.forall_mem_cons.2 ⟨hgap, ih.1⟩, ih.2⟩

/-- The layout of a text has its blanks before and behind its pieces. -/
theorem spaced_layout (text : String) : (layout text).Spaced := by
  obtain ⟨ls, hreads⟩ := reads_layout text
  obtain ⟨hgaps, hunread⟩ := hreads.blanks
  exact ⟨fun c hc => List.all_eq_true.1 List.all_takeWhile c hc, hgaps, hunread⟩

/-- The pieces of the layout of a text are where its tokens are. -/
theorem spans_layout (text : String) :
    (layout text).spans = (properTokens text).map Token.extent := by
  obtain ⟨ls, hreads⟩ := reads_layout text
  have hspans := (hreads.tokens (spaced_layout text).lead).2.1
  rwa [text_layout, eq_comm] at hspans

/-- A respaced text has the same kinds and literals of tokens, and they are where its pieces are. -/
theorem Layout.Respaced.tokens {text : String} {l : Layout} (h : (layout text).Respaced l) :
    (tokenize l.text).map Token.form = (tokenize text).map Token.form ∧
      (properTokens l.text).map Token.extent = l.spans := by
  obtain ⟨ls, hreads⟩ := reads_layout text
  have hforms := (hreads.tokens (spaced_layout text).lead).1
  rw [text_layout] at hforms
  have hreads' := hreads.respaced h.pieces
  rw [← h.unread] at hreads'
  obtain ⟨hforms', hspans, -⟩ := hreads'.tokens h.lead
  exact ⟨hforms'.trans hforms.symm, hspans⟩

end Tapestry

import Tapestry.Proofs.Respacing
import Tapestry.Proofs.Tiling
import Tapestry.Script

/-!
# Scripts without their comments

A script is read line by line to take out its comments, and then character by character to take it
apart into tokens. Taking out comments leaves the other lines as they are, but it writes them with
line feeds as their line ends, and with none at the end of the text.

Line ends are blanks, so no token can tell them apart, except for a string that goes on over the end
of its line. In a text without comments and without such strings nothing changes for the tokens.

## Key results

- `stripComments_comment`: a comment may as well not be there
- `relined_append`: characters of one line stay as they are
- `Reads.relined`: pieces are read as before when the line ends are changed
- `stripComments_agrees`: both readings of a script agree
-/

namespace Tapestry

open Text (lines)
open Parse (Agrees)

variable {c : Char} {cs rest : List Char}

/-! ## Lines -/

/-- Whether a character in front of others belongs to their line: it is no line feed, and no
    carriage return that ends the line together with one. -/
def StaysInLine (c : Char) (cs : List Char) : Prop :=
  c ≠ '\n' ∧ ¬ (c = '\r' ∧ cs.head? = some '\n')

/-- A character ends a line, or belongs to the end of one, or belongs to a line. -/
private theorem lineEnd_cases (c : Char) (cs : List Char) :
    c = '\n' ∨ (c = '\r' ∧ ∃ cs', cs = '\n' :: cs') ∨ StaysInLine c cs := by
  by_cases hlf : c = '\n'
  · exact .inl hlf
  · by_cases hcr : c = '\r' ∧ cs.head? = some '\n'
    · exact .inr (.inl ⟨hcr.1, List.head?_eq_some_iff.1 hcr.2⟩)
    · exact .inr (.inr ⟨hlf, hcr⟩)

/-- A character that is no blank ends no line. -/
private theorem staysInLine_of_isBlank_eq_false (h : isBlank c = false) (cs : List Char) :
    StaysInLine c cs := by
  refine ⟨?_, fun hcr => ?_⟩
  · rintro rfl
    exact absurd h (by decide)
  · rw [hcr.1] at h
    exact absurd h (by decide)

/-- A line feed ends the line in front of it. -/
private theorem lines_lf (cs : List Char) : lines ('\n' :: cs) = [] :: lines cs := by
  simp [lines]

/-- A carriage return in front of a line feed belongs to no line. -/
private theorem lines_cr_lf (cs : List Char) : lines ('\r' :: '\n' :: cs) = lines ('\n' :: cs) := by
  simp [lines]

/-- A character that ends no line comes in front of the first one. -/
private theorem lines_cons (h : StaysInLine c cs) :
    lines (c :: cs) = (c :: (lines cs).headD []) :: (lines cs).tail := by
  rw [lines]
  · cases lines cs with
    | nil => rfl
    | cons => rfl
  · rintro cs' rfl rfl
    exact h.2 ⟨rfl, rfl⟩
  · exact h.1

/-- Only the empty text has no line. -/
private theorem lines_ne_nil (h : cs ≠ []) : lines cs ≠ [] := by
  cases cs with
  | nil => exact absurd rfl h
  | cons c cs =>
    rcases lineEnd_cases c cs with rfl | ⟨rfl, cs', rfl⟩ | hstays
    · rw [lines_lf]
      exact List.cons_ne_nil _ _
    · rw [lines_cr_lf, lines_lf]
      exact List.cons_ne_nil _ _
    · rw [lines_cons hstays]
      exact List.cons_ne_nil _ _

/-- Behind the end of a line other lines begin. -/
private theorem lines_append {front : List Char} (h : ∀ c ∈ front.getLast?, c = '\n')
    (rest : List Char) : lines (front ++ rest) = lines front ++ lines rest := by
  induction front with
  | nil => rfl
  | cons c front ih =>
    have hfront : ∀ d ∈ front.getLast?, d = '\n' := by
      cases front with
      | nil => nofun
      | cons => exact h
    have hrest := ih hfront
    -- The first character may end a line, begin the end of one, or belong to one.
    rcases lineEnd_cases c front with rfl | ⟨rfl, front', rfl⟩ | hstays
    · rw [List.cons_append, lines_lf, lines_lf, hrest, List.cons_append]
    · rwa [List.cons_append, List.cons_append, lines_cr_lf, lines_cr_lf]
    · -- A character that ends no line is not the last one, so there is a line that it belongs to.
      have hne : front ≠ [] := by
        rintro rfl
        exact hstays.1 (h c rfl)
      have hstays' : StaysInLine c (front ++ rest) := by
        rwa [StaysInLine, List.head?_append_of_ne_nil _ hne]
      obtain ⟨l, ls, hlines⟩ := List.exists_cons_of_ne_nil (lines_ne_nil hne)
      rw [List.cons_append, lines_cons hstays', lines_cons hstays, hrest, hlines]
      rfl

/-- The characters up to a line feed are one line, without a carriage return at their end. -/
private theorem exists_lines_concat (h : '\n' ∉ cs) :
    ∃ line, lines (cs ++ ['\n']) = [line] ∧ (line = cs ∨ line ++ ['\r'] = cs) := by
  induction cs with
  | nil => exact ⟨[], by simp [lines], .inl rfl⟩
  | cons c cs ih =>
    rw [List.mem_cons, not_or] at h
    -- The induction is on the line, whose last character may be a carriage return.
    obtain ⟨line, hlines, hline⟩ := ih h.2
    rcases lineEnd_cases c (cs ++ ['\n']) with rfl | ⟨rfl, cs', hcs⟩ | hstays
    · exact absurd rfl h.1
    · have hnil : cs = [] := by
        cases cs with
        | nil => rfl
        | cons d cs => exact absurd (List.mem_cons.2 (.inl (List.cons.inj hcs).1.symm)) h.2
      rw [hnil]
      exact ⟨[], by simp [lines], .inr rfl⟩
    · refine ⟨c :: line, ?_, ?_⟩
      · rw [List.cons_append, lines_cons hstays, hlines]
        rfl
      · exact hline.imp (congrArg _) (congrArg _)

/-! ## Comments -/

/-- A comment is two slashes, with white space in front of them and anything behind them. -/
private theorem isComment_iff {line : List Char} :
    Script.isComment line = true ↔
      ∃ space more, (∀ c ∈ space, Text.isSpace c = true) ∧ line = space ++ '/' :: '/' :: more := by
  rw [Script.isComment, List.isPrefixOf_iff_prefix, Text.trimStart]
  -- A comment begins behind the blanks in front of it, which trimming takes away.
  constructor
  · rintro ⟨more, hmore⟩
    refine ⟨line.takeWhile Text.isSpace, more, List.all_eq_true.1 List.all_takeWhile, ?_⟩
    have hline := @List.takeWhile_append_dropWhile _ Text.isSpace line
    rw [← hmore] at hline
    exact hline.symm
  -- Behind other blanks there is no slash that they could hide.
  · rintro ⟨space, more, hspace, rfl⟩
    have hslash : Text.isSpace '/' = false := by decide
    rw [List.dropWhile_append_of_pos hspace, List.dropWhile_cons_of_neg (by simp [hslash])]
    exact List.prefix_append ['/', '/'] more

/-- The carriage return at the end of a line does not make it a comment. -/
private theorem isComment_of_concat {line : List Char}
    (h : Script.isComment (line ++ ['\r']) = true) : Script.isComment line = true := by
  obtain ⟨space, more, hspace, hline⟩ := isComment_iff.1 h
  rw [isComment_iff]
  rcases List.eq_nil_or_concat more with rfl | ⟨more, c, rfl⟩
  · -- Then the last character would be a slash.
    have hlast := congrArg List.getLast? hline
    simp at hlast
  · refine ⟨space, more, hspace, ?_⟩
    rw [List.concat_eq_append, ← List.cons_append, ← List.cons_append, ← List.append_assoc] at hline
    exact (List.append_inj' hline rfl).1

/-- A comment may as well not be there. -/
theorem stripComments_comment {front comment : String}
    (hfront : ∀ c ∈ front.toList.getLast?, c = '\n') (hline : '\n' ∉ comment.toList)
    (hcomment : Script.isComment comment.toList = true) (rest : String) :
    Script.stripComments (front ++ comment ++ "\n" ++ rest) =
      Script.stripComments (front ++ rest) := by
  obtain ⟨line, hlines, hsame⟩ := exists_lines_concat hline
  -- The carriage return at the end of a line, if there is one, is no part of the mark.
  have hcomment' : Script.isComment line = true := by
    rcases hsame with rfl | hsame
    · exact hcomment
    · exact isComment_of_concat (hsame ▸ hcomment)
  have htext : (front ++ comment ++ "\n" ++ rest).toList =
      front.toList ++ ((comment.toList ++ ['\n']) ++ rest.toList) := by
    simp [String.toList_append]
  have hend : ∀ c ∈ (comment.toList ++ ['\n']).getLast?, c = '\n' := by simp
  -- Lines in front and behind stay, and the comment is a line of its own between them.
  rw [Script.stripComments, Script.stripComments, htext, lines_append hfront, lines_append hend,
    hlines, String.toList_append, lines_append hfront]
  simp [hcomment']

/-! ## Line ends -/

/-- A text with line feeds for its line ends, and with none at the end. -/
def relined (cs : List Char) : List Char := List.intercalate ['\n'] (lines cs)

/-- A line feed stays, unless it is the last character. -/
private theorem relined_lf (cs : List Char) :
    relined ('\n' :: cs) = if cs = [] then [] else '\n' :: relined cs := by
  rw [relined, lines_lf]
  split
  · next h =>
    rw [h]
    rfl
  · next h =>
    rw [List.intercalate_cons_of_ne_nil (lines_ne_nil h)]
    rfl

/-- A carriage return in front of a line feed is lost. -/
private theorem relined_cr_lf (cs : List Char) :
    relined ('\r' :: '\n' :: cs) = relined ('\n' :: cs) := by
  rw [relined, lines_cr_lf, ← relined]

/-- A character that ends no line stays. -/
private theorem relined_cons (h : StaysInLine c cs) : relined (c :: cs) = c :: relined cs := by
  rw [relined, lines_cons h, relined]
  cases hlines : lines cs with
  | nil => rfl
  | cons l ls =>
    cases ls with
    | nil => simp
    | cons => simp [List.intercalate_cons_of_ne_nil]

/-- A line end stays a blank, or nothing is left behind it. -/
private theorem isBlank_head?_relined_lf (cs : List Char) :
    ∀ d ∈ (relined ('\n' :: cs)).head?, isBlank d = true := by
  intro d hd
  rw [relined_lf] at hd
  split at hd
  · cases hd
  · cases hd
    decide

/-- Other line ends start with a blank or in the same way. -/
private theorem head?_relined (cs : List Char) :
    (∀ d ∈ (relined cs).head?, isBlank d = true) ∨ (relined cs).head? = cs.head? := by
  cases cs with
  | nil => exact .inr rfl
  | cons c cs =>
    rcases lineEnd_cases c cs with rfl | ⟨rfl, cs', rfl⟩ | hstays
    · exact .inl (isBlank_head?_relined_lf cs)
    · rw [relined_cr_lf]
      exact .inl (isBlank_head?_relined_lf cs')
    · rw [relined_cons hstays]
      exact .inr rfl

/-- The characters of a text with other line ends may stand for those of the text. -/
private theorem follows_relined (cs : List Char) : Follows cs (relined cs) := by
  cases cs with
  | nil => exact .inr ⟨rfl, id⟩
  | cons c cs =>
    rcases lineEnd_cases c cs with rfl | ⟨rfl, cs', rfl⟩ | hstays
    · exact .inl (isBlank_head?_relined_lf cs)
    · rw [relined_cr_lf]
      exact .inl (isBlank_head?_relined_lf cs')
    · rw [relined_cons hstays]
      exact .inr ⟨rfl, fun hstops => wordTail_cons_eq_nil hstops (head?_relined cs)⟩

/-- Characters of one line stay as they are. -/
theorem relined_append (h : '\n' ∉ cs) (hlast : cs.getLast? ≠ some '\r') (rest : List Char) :
    relined (cs ++ rest) = cs ++ relined rest := by
  induction cs with
  | nil => rfl
  | cons c cs ih =>
    rw [List.mem_cons, not_or] at h
    have hlast' : cs.getLast? ≠ some '\r' := by
      cases cs with
      | nil => nofun
      | cons => exact hlast
    -- The last character is no carriage return, so none of them can end a line with what follows.
    have hstays : StaysInLine c (cs ++ rest) := by
      refine ⟨Ne.symm h.1, fun ⟨hcr, hlf⟩ => ?_⟩
      cases cs with
      | nil => exact hlast (congrArg some hcr)
      | cons d cs => exact h.2 (List.mem_cons.2 (.inl (Option.some.inj hlf).symm))
    rw [List.cons_append, relined_cons hstays, ih h.2 hlast', List.cons_append]

/-- Blanks stay blanks, perhaps fewer. -/
private theorem exists_relined_blanks {gap : List Char} (hgap : ∀ c ∈ gap, isBlank c = true)
    (hrest : ∀ c ∈ rest.head?, isBlank c = false) :
    ∃ gap', (∀ c ∈ gap', isBlank c = true) ∧ relined (gap ++ rest) = gap' ++ relined rest := by
  induction gap with
  | nil => exact ⟨[], nofun, rfl⟩
  | cons c gap ih =>
    obtain ⟨hc, hgap⟩ := List.forall_mem_cons.1 hgap
    obtain ⟨gap', hgap', hrelined⟩ := ih hgap
    rw [List.cons_append]
    -- Blanks may be line ends themselves, which become line feeds or are lost at the end of the
    -- text.
    rcases lineEnd_cases c (gap ++ rest) with rfl | ⟨rfl, cs', hcs⟩ | hstays
    · rw [relined_lf, hrelined]
      split
      · next h =>
        obtain ⟨-, rfl⟩ := List.append_eq_nil_iff.1 h
        exact ⟨[], nofun, rfl⟩
      · exact ⟨'\n' :: gap', List.forall_mem_cons.2 ⟨hc, hgap'⟩, rfl⟩
    · rw [hcs, relined_cr_lf, ← hcs]
      exact ⟨gap', hgap', hrelined⟩
    · rw [relined_cons hstays, hrelined]
      exact ⟨c :: gap', List.forall_mem_cons.2 ⟨hc, hgap'⟩, rfl⟩

/-! ## Tokens -/

/-- A string that is closed where its characters end, ends with the closing quote. -/
private theorem getLast?_of_closesQuote {more : List Char} (h : closesQuote more = true)
    (hlength : (readQuoted more).2 = more.length) : more.getLast? = some '"' := by
  fun_induction closesQuote more with
  | case1 => cases h
  | case2 cs =>
    -- The first quote closes the string, so nothing comes behind it.
    have hnil : cs = [] := List.eq_nil_of_length_eq_zero (Nat.succ.inj hlength).symm
    rw [hnil]
    rfl
  | case3 => cases h
  | case4 c cs ih =>
    simp only [readQuoted, List.length_cons] at hlength
    have hlast := ih h (by omega)
    simp [List.getLast?_cons, hlast]
  | case5 c cs hq hb hb' ih =>
    have hc : c ≠ '\\' := ne_backslash hb hb'
    rw [readQuoted_plain hq hc, List.length_cons] at hlength
    have hlast := ih h (by omega)
    simp [List.getLast?_cons, hlast]

/-- Whether a piece is on one line: it is no string, or one that is closed on its line. -/
def Piece.OnLine (p : Piece) : Prop := p.first = '"' → closesQuote p.more = true ∧ '\n' ∉ p.more

instance (p : Piece) : Decidable p.OnLine :=
  inferInstanceAs (Decidable (p.first = '"' → closesQuote p.more = true ∧ '\n' ∉ p.more))

/-- Whether every string of a text is closed on its line. -/
def StringsOnLines (text : String) : Prop := ∀ p ∈ (layout text).pieces, p.OnLine

instance (text : String) : Decidable (StringsOnLines text) :=
  inferInstanceAs (Decidable (∀ p ∈ (layout text).pieces, p.OnLine))

/-- No lexeme but a string takes blanks. -/
private theorem Scanned.blankless {more : List Char} {l : Lexeme} (h : Scanned c (more ++ rest) l)
    (hl : l.extra = more.length) (hc : c ≠ '"') : ∀ d ∈ more, isBlank d = false := by
  -- The characters of a word or a value are none of the blanks.
  have hgoes {d : Char} (hd : continuesValue d = true ∨ d = '_') : isBlank d = false := by
    rw [← Bool.not_eq_true]
    intro hblank
    obtain ⟨hvalue, hword⟩ := continuesValue_of_isBlank hblank
    exact hd.elim (fun h => Bool.false_ne_true (hvalue.symm.trans h)) hword
  intro d hd
  cases h with
  | sign | minus =>
    rw [List.eq_nil_of_length_eq_zero hl.symm] at hd
    exact nomatch hd
  | quoted hquote => exact absurd hquote hc
  | word =>
    have hp := wordTail_prefix (more ++ rest)
    rw [← eq_of_prefix_append hp hl] at hd
    apply hgoes
    simp only [continuesValue, Bool.or_eq_true, beq_iff_eq]
    rcases mem_wordTail hd with hletter | hline | hdot
    · exact .inl (.inl (.inl (.inl hletter)))
    · exact .inr hline
    · exact .inl (.inl (.inl (.inr hdot)))
  | value =>
    have hp := List.takeWhile_prefix (l := more ++ rest) continuesValue
    rw [← eq_of_prefix_append hp hl] at hd
    exact hgoes (.inl (List.all_eq_true.1 List.all_takeWhile d hd))

/-- The characters of a piece on one line, and the last of them. -/
theorem Piece.OnLine.chars {p : Piece} {l : Lexeme} (h : p.OnLine)
    (hscan : Scanned p.first (p.more ++ rest) l) (hextra : l.extra = p.more.length) :
    '\n' ∉ p.first :: p.more ∧ (p.first :: p.more).getLast? ≠ some '\r' := by
  by_cases hquote : p.first = '"'
  · obtain ⟨hclosed, hline⟩ := h hquote
    -- A quote starts nothing but a string.
    have hstring : Scanned p.first (p.more ++ rest) _ := .quoted hquote
    have hl := Option.some.inj (hscan.scan?.symm.trans hstring.scan?)
    rw [hl, readQuoted_append hclosed] at hextra
    have hlast := getLast?_of_closesQuote hclosed hextra
    rw [hquote]
    exact ⟨by simp [hline], by simp [List.getLast?_cons, hlast]⟩
  · have hblank : ∀ d ∈ p.first :: p.more, isBlank d = false :=
      List.forall_mem_cons.2 ⟨hscan.isBlank_eq_false, hscan.blankless hextra hquote⟩
    refine ⟨fun hlf => absurd (hblank _ hlf) (by decide), fun hcr => ?_⟩
    exact absurd (hblank _ (List.mem_of_getLast? hcr)) (by decide)

/-- In front of what pieces are read as there is no blank. -/
theorem Reads.head?_charsOf {unread : List Char} {ps : List Piece} {ls : List Lexeme}
    (h : Reads unread ps ls) : ∀ c ∈ (charsOf ps unread).head?, isBlank c = false := by
  cases h with
  | done h =>
    intro c hc
    obtain ⟨cs, hcs⟩ := List.head?_eq_some_iff.1 hc
    exact (h c cs hcs).1
  | piece hscan =>
    rintro c ⟨⟩
    exact hscan.isBlank_eq_false

/-- Pieces on one line each are read as before when the line ends are changed. -/
theorem Reads.relined {unread : List Char} {ps : List Piece} {ls : List Lexeme}
    (h : Reads unread ps ls) (hps : ∀ p ∈ ps, p.OnLine) :
    ∃ ps' unread', relined (charsOf ps unread) = charsOf ps' unread' ∧ Reads unread' ps' ls := by
  induction h with
  | done h =>
    cases unread with
    | nil => exact ⟨[], [], rfl, .done h⟩
    | cons c cs =>
      -- Where reading stopped it stops again, whatever the character stands in front of.
      obtain ⟨hblank, hnone⟩ := h c cs rfl
      refine ⟨[], c :: Tapestry.relined cs, ?_, .done ?_⟩
      · exact relined_cons (staysInLine_of_isBlank_eq_false hblank cs)
      · rintro _ _ ⟨⟩
        exact ⟨hblank, Cursor.scan?_eq_none hnone _⟩
  | @piece p ps l ls hscan hextra hgap hreads ih =>
    obtain ⟨hp, hps⟩ := List.forall_mem_cons.1 hps
    obtain ⟨ps', unread', hrelined, hreads'⟩ := ih hps
    -- The piece stays as it is, and only the blanks behind it are others.
    obtain ⟨hline, hlast⟩ := hp.chars hscan hextra
    obtain ⟨gap', hgap', hblanks⟩ := exists_relined_blanks hgap (hreads.head?_charsOf)
    have hrest : Tapestry.relined (p.gap ++ charsOf ps unread) = gap' ++ charsOf ps' unread' := by
      rw [hblanks, hrelined]
    refine ⟨⟨p.first, p.more, gap'⟩ :: ps', unread', ?_, .piece ?_ hextra hgap' hreads'⟩
    · rw [charsOf, ← List.cons_append, relined_append hline hlast, hrest]
      rfl
    · have hfollows := follows_relined (p.gap ++ charsOf ps unread)
      rw [hrest] at hfollows
      apply hscan.follows hextra hfollows
      intro hquote hopen
      exact absurd (hp hquote).1 (by simp [hopen])

/-- A text whose strings are closed on their lines has the same kinds and literals of tokens with
    other line ends. -/
theorem StringsOnLines.tokens {text : String} (h : StringsOnLines text) :
    (tokenize (String.ofList (relined text.toList))).map Token.form =
      (tokenize text).map Token.form := by
  obtain ⟨ls, hreads⟩ := reads_layout text
  have hlead := (spaced_layout text).lead
  obtain ⟨ps', unread', hrelined, hreads'⟩ := hreads.relined h
  obtain ⟨lead', hlead', hblanks⟩ := exists_relined_blanks hlead hreads.head?_charsOf
  have htext := toList_layout text
  -- Both texts have layouts that are read as the same lexemes.
  have hforms := (hreads.tokens hlead).1
  rw [text_layout] at hforms
  have hforms' := (@Reads.tokens _ ⟨lead', ps', unread'⟩ hreads' hlead').1
  rw [Layout.text, ← hrelined, ← hblanks, ← htext] at hforms'
  exact hforms'.trans hforms.symm

/-- Without comments, only the line ends of a text are changed. -/
private theorem stripComments_eq {text : String}
    (h : ∀ line ∈ lines text.toList, Script.isComment line = false) :
    Script.stripComments text = String.ofList (relined text.toList) := by
  have hall : (lines text.toList).filter (fun l => !Script.isComment l) = lines text.toList :=
    List.filter_eq_self.2 fun line hline => by rw [h line hline, Bool.not_false]
  rw [Script.stripComments, hall, relined]

/-- Texts with the same kinds and literals of tokens denote the same expression, or reading them
    fails with the same error at tokens in the same place of the lists. -/
private theorem agrees_parse {text text' : String}
    (h : (tokenize text).map Token.form = (tokenize text').map Token.form) :
    Agrees (fun t t' => (t, t') ∈ (tokenize text).zip (tokenize text')) Eq (parse text)
      (parse text') := by
  obtain ⟨stop, -, htokens⟩ := tokenize_eq text
  obtain ⟨stop', -, htokens'⟩ := tokenize_eq text'
  rw [parse, parse]
  rw [htokens, htokens'] at h ⊢
  exact agrees_ofTokens h

/-- Taking out comments agrees with taking a text apart into tokens. A comment may as well not be
    there, wherever a line may stand. A text without comments whose strings are closed on their
    lines has the same kinds and literals of tokens as before, whatever its line ends are, and
    denotes the same expression, or reading it fails with the same error at the token in the same
    place of the list. -/
theorem stripComments_agrees :
    (∀ front comment rest : String, front = "" ∨ front.toList.getLast? = some '\n' →
      '\n' ∉ comment.toList → Script.isComment comment.toList = true →
      Script.stripComments (front ++ comment ++ "\n" ++ rest) =
        Script.stripComments (front ++ rest)) ∧
    ∀ text : String, (∀ line ∈ lines text.toList, Script.isComment line = false) →
      StringsOnLines text →
      (tokenize (Script.stripComments text)).map Token.form = (tokenize text).map Token.form ∧
      Agrees (fun t t' => (t, t') ∈ (tokenize text).zip (tokenize (Script.stripComments text))) Eq
        (parse text) (parse (Script.stripComments text)) := by
  constructor
  · intro front comment rest hfront hline hcomment
    -- The text in front is empty or ends with a line feed.
    refine stripComments_comment (fun c hc => ?_) hline hcomment rest
    rcases hfront with rfl | hlf
    · exact nomatch hc
    · exact (Option.some.inj (hlf.symm.trans hc)).symm
  · intro text hcomments hstrings
    rw [stripComments_eq hcomments]
    exact ⟨hstrings.tokens, agrees_parse hstrings.tokens.symm⟩

/-- A comment between two lines, and a text with both kinds of line ends and with a string. -/
theorem stripComments_agrees_lineEnds :
    Script.stripComments "load x\r\n  // y\r\n| blur" = Script.stripComments "load x\r\n| blur" ∧
    Script.stripComments "load \"a\rb\" |\r\nblur\n\n" = "load \"a\rb\" |\nblur\n" ∧
    (tokenize "load \"a\rb\" |\nblur\n").map Token.form =
      (tokenize "load \"a\rb\" |\r\nblur\n\n").map Token.form := by
  obtain ⟨hcomment, hends⟩ := stripComments_agrees
  -- The first text has its comment in the middle, and with carriage returns at its line ends.
  have hfirst := hcomment "load x\r\n" "  // y\r" "| blur" (.inr (by decide)) (by decide)
    (by decide +kernel)
  have hstrip : Script.stripComments "load \"a\rb\" |\r\nblur\n\n" =
      "load \"a\rb\" |\nblur\n" := by decide +kernel
  have hsecond := hends "load \"a\rb\" |\r\nblur\n\n" (by decide +kernel) (by decide +kernel)
  rw [hstrip] at hsecond
  exact ⟨hfirst, hstrip, hsecond.1⟩

end Tapestry

import Tapestry.Json
import Tapestry.Proofs.HexDigits

/-!
# Reading JSON

A reader of JSON without numbers and the three words, which is what `Json` can hold. White space may
stand between any two signs. A text is read up to its closing quote, with every escape that JSON
has: a character may stand for itself, or be named by a letter or by four digits behind a backslash,
and two such groups of digits name one character outside the first plane.

What `Json.write` writes is read back at any level of nesting and in front of anything. The proof
follows the value: each sign is the first one behind the line break in front of it.

## Key results

- `readText_escaped`: what stands between the quotes of a text is read back
- `readValue_write`: a written value is read back in front of anything
- `read?_pretty`: the text of a value is read as the value
- `pretty_injective`: no two values have the same text
-/

namespace Tapestry.Json

open Text (hexValue?)

/-! ## Texts -/

/-- The code unit that four hexadecimal digits stand for. -/
def codeUnit? (a b c d : Char) : Option Nat := do
  let a ← hexValue? a
  let b ← hexValue? b
  let c ← hexValue? c
  let d ← hexValue? d
  return ((a * 16 + b) * 16 + c) * 16 + d

/-- The character that a single one behind a backslash stands for. -/
def escaped? : Char → Option Char
  | '"' => some '"'
  | '\\' => some '\\'
  | '/' => some '/'
  | 'b' => some '\x08'
  | 'f' => some '\x0c'
  | 'n' => some '\n'
  | 'r' => some '\r'
  | 't' => some '\t'
  | _ => none

/-- Read code points and code units up to the closing quote, and what stands behind it. -/
def readText : List Char → Option (List Nat × List Char)
  | [] => none
  | '"' :: cs => some ([], cs)
  | '\\' :: 'u' :: a :: b :: c :: d :: cs =>
    (codeUnit? a b c d).bind fun unit => (readText cs).map (Prod.map (unit :: ·) id)
  | '\\' :: c :: cs =>
    (escaped? c).bind fun c => (readText cs).map (Prod.map (c.toNat :: ·) id)
  | c :: cs =>
    if c = '\\' ∨ c < ' ' then none else (readText cs).map (Prod.map (c.toNat :: ·) id)

/-- The characters of code points and code units, where two surrogates stand for one character. -/
def characters? : List Nat → Option (List Char)
  | [] => some []
  | n :: ns =>
    if n.isValidChar then (characters? ns).map (Char.ofNat n :: ·)
    else
      match ns with
      | [] => none
      | m :: ns =>
        if (0xD800 ≤ n ∧ n < 0xDC00) ∧ 0xDC00 ≤ m ∧ m < 0xE000 then
          (characters? ns).map
            (Char.ofNat (0x10000 + (n - 0xD800) * 0x400 + (m - 0xDC00)) :: ·)
        else none

/-! ## Values -/

/-- What was read from `cs`, and fewer characters left to read. -/
abbrev Taken (α : Type) (cs : List Char) : Type :=
  Option { r : α × List Char // r.2.length < cs.length }

namespace Taken

variable {α β : Type} {cs : List Char}

/-- What was read, as another value. -/
def as (t : Taken α cs) (f : α → β) : Taken β cs :=
  Option.map (fun ⟨(a, rest), h⟩ => ⟨(f a, rest), h⟩) t

/-- What was read from the end of more characters. -/
def within {rest : List Char} (t : Taken α rest) (h : rest.length < cs.length) : Taken α cs :=
  Option.map (fun ⟨r, h'⟩ => ⟨r, Nat.lt_trans h' h⟩) t

/-- Go on with what was read and with what is left. -/
def andThen (t : Taken α cs)
    (next : α → (rest : List Char) → rest.length < cs.length → Taken β cs) : Taken β cs :=
  Option.bind t fun ⟨(a, rest), h⟩ => next a rest h

/-- Whether a value was read, and certain characters are left. -/
def Reads (t : Taken α cs) (a : α) (rest : List Char) : Prop :=
  Option.map Subtype.val t = some (a, rest)

end Taken

/-- There is less behind the closing quote. -/
private theorem length_of_readText {cs rest : List Char} {units : List Nat}
    (h : readText cs = some (units, rest)) : rest.length < cs.length := by
  -- What is read from the end of the text has its own closing quote in front of the rest.
  have hmap {n : Nat} {r : Option (List Nat × List Char)} {units : List Nat}
      (h : r.map (Prod.map (n :: ·) id) = some (units, rest)) : ∃ us, r = some (us, rest) := by
    obtain ⟨⟨us, rest'⟩, hr, heq⟩ := Option.map_eq_some_iff.1 h
    obtain rfl : rest' = rest := (Prod.mk.inj heq).2
    exact ⟨us, hr⟩
  fun_induction readText cs generalizing units with
  | case1 => cases h
  | case2 cs =>
    cases h
    exact Nat.lt_succ_self _
  | case3 a b c d cs ih =>
    obtain ⟨unit, -, h⟩ := Option.bind_eq_some_iff.1 h
    obtain ⟨us, hread⟩ := hmap h
    have := ih hread
    simp only [List.length_cons]
    omega
  | case4 c cs _ ih =>
    obtain ⟨c', -, h⟩ := Option.bind_eq_some_iff.1 h
    obtain ⟨us, hread⟩ := hmap h
    have := ih hread
    simp only [List.length_cons]
    omega
  | case5 => cases h
  | case6 c cs _ _ _ _ ih =>
    obtain ⟨us, hread⟩ := hmap h
    exact Nat.lt_succ_of_lt (ih hread)

/-- Read a text behind its opening quote. -/
def readString (cs : List Char) : Taken String cs :=
  match h : readText cs with
  | none => none
  | some (units, rest) =>
    (characters? units).map fun text => ⟨(String.ofList text, rest), length_of_readText h⟩

/-- The white space of JSON. -/
def isWhite (c : Char) : Bool := c == ' ' || c == '\t' || c == '\n' || c == '\r'

/-- Read a character behind white space. -/
def readSign : (cs : List Char) → Taken Char cs
  | [] => none
  | c :: cs =>
    if isWhite c then (readSign cs).within (Nat.lt_succ_self _)
    else some ⟨(c, cs), Nat.lt_succ_self _⟩

mutual

/-- Read a value. -/
def readValue (cs : List Char) : Taken Json cs :=
  (readSign cs).andThen fun sign rest h =>
    if sign = '"' then ((readString rest).within h).as .string
    else if sign = '[' then ((readArray rest).within h).as .array
    else if sign = '\x7b' then ((readObject rest).within h).as .object
    else none
termination_by 2 * cs.length

/-- Read the items of a list behind its opening bracket. -/
def readArray (cs : List Char) : Taken (List Json) cs :=
  (readSign cs).andThen fun sign rest h =>
    if sign = ']' then some ⟨([], rest), h⟩
    else (readValue cs).andThen fun v rest h => ((readItems rest).within h).as (v :: ·)
termination_by 2 * cs.length + 1

/-- Read the items after one of them, up to the closing bracket. -/
def readItems (cs : List Char) : Taken (List Json) cs :=
  (readSign cs).andThen fun sign rest h =>
    if sign = ']' then some ⟨([], rest), h⟩
    else if sign = ',' then
      ((readValue rest).within h).andThen fun v rest h => ((readItems rest).within h).as (v :: ·)
    else none
termination_by 2 * cs.length

/-- Read the members of an object behind its opening brace. -/
def readObject (cs : List Char) : Taken (List (String × Json)) cs :=
  (readSign cs).andThen fun sign rest h =>
    if sign = '\x7d' then some ⟨([], rest), h⟩
    else (readMember cs).andThen fun m rest h => ((readMembers rest).within h).as (m :: ·)
termination_by 2 * cs.length + 1

/-- Read the members after one of them, up to the closing brace. -/
def readMembers (cs : List Char) : Taken (List (String × Json)) cs :=
  (readSign cs).andThen fun sign rest h =>
    if sign = '\x7d' then some ⟨([], rest), h⟩
    else if sign = ',' then
      ((readMember rest).within h).andThen fun m rest h => ((readMembers rest).within h).as (m :: ·)
    else none
termination_by 2 * cs.length

/-- Read a key, a colon and a value. -/
def readMember (cs : List Char) : Taken (String × Json) cs :=
  (readSign cs).andThen fun sign rest h =>
    if sign = '"' then
      ((readString rest).within h).andThen fun key rest h =>
        ((readSign rest).within h).andThen fun colon rest h =>
          if colon = ':' then ((readValue rest).within h).as (key, ·) else none
    else none
termination_by 2 * cs.length

end

/-- Read a text as a value with nothing but white space around it. -/
def read? (s : String) : Option Json :=
  ((readValue s.toList).map Subtype.val).bind fun (v, rest) =>
    if rest.all isWhite then some v else none

/-! ## Reading what was written -/

namespace Taken.Reads

variable {α β : Type} {cs rest : List Char} {t : Taken α cs} {a : α}

/-- What is made of a value that was read is read in its place. -/
theorem as (h : t.Reads a rest) (f : α → β) : (t.as f).Reads (f a) rest := by
  obtain ⟨⟨_, hlt⟩, rfl, rfl⟩ := Option.map_eq_some_iff.1 h
  rfl

/-- A value that was read is read from any longer text with the same end. -/
private theorem within (h : t.Reads a rest) {more : List Char} (hlt : cs.length < more.length) :
    (t.within hlt).Reads a rest := by
  obtain ⟨⟨_, hlt⟩, rfl, rfl⟩ := Option.map_eq_some_iff.1 h
  rfl

/-- What comes behind a value is read from where the value ends. -/
theorem andThen (h : t.Reads a rest) {b : β} {rest' : List Char}
    {next : α → (rest : List Char) → rest.length < cs.length → Taken β cs}
    (hnext : ∀ hlt, (next a rest hlt).Reads b rest') : (t.andThen next).Reads b rest' := by
  obtain ⟨⟨_, hlt⟩, rfl, rfl⟩ := Option.map_eq_some_iff.1 h
  exact hnext hlt

end Taken.Reads

/-! ### Texts -/

/-- The digit that is written for a number stands for it. -/
private theorem hexValue?_hexChar {n : Nat} (h : n < 16) : hexValue? (hexChar n) = some n := by
  have hdigits : ∀ n : Fin 16, hexValue? (hexChar n) = some n.val := by decide +kernel
  exact hdigits ⟨n, h⟩

/-- The four digits of a control character are read. -/
private theorem codeUnit?_hexChar {n : Nat} (h : n < 32) :
    codeUnit? '0' '0' (hexChar (n / 16)) (hexChar (n % 16)) = some n := by
  have hzero : hexValue? '0' = some 0 := by decide +kernel
  have hhigh := hexValue?_hexChar (n := n / 16) (by omega)
  have hlow := hexValue?_hexChar (n := n % 16) (by omega)
  simp only [codeUnit?, hzero, hhigh, hlow, Option.bind_eq_bind, Option.bind_some, Option.pure_def,
    Option.some.injEq]
  omega

/-- A character that needs no backslash is read as it stands. -/
private theorem readText_plain {c : Char} (hquote : c ≠ '"') (hbackslash : c ≠ '\\')
    (hspace : ' ' ≤ c)
    (cs : List Char) : readText (c :: cs) = (readText cs).map (Prod.map (c.toNat :: ·) id) := by
  rw [readText, if_neg]
  · exact not_or.2 ⟨hbackslash, Char.not_lt.2 hspace⟩
  · exact fun h => hquote h
  · exact fun _ _ _ _ _ h => absurd h hbackslash
  · exact fun _ _ h => absurd h hbackslash

/-- A character is read back as its code point. -/
private theorem readText_escapeChar (c : Char) (cs : List Char) :
    readText (escapeChar c ++ cs) = (readText cs).map (Prod.map (c.toNat :: ·) id) := by
  -- One branch for each escape; only the plain characters and the control characters need more than
  -- the reader's own step.
  unfold escapeChar
  split
  · next h =>
    subst h
    rfl
  split
  · next h =>
    subst h
    rfl
  split
  · next hquote hbackslash hspace => exact readText_plain hquote hbackslash hspace cs
  split
  · next h =>
    subst h
    rfl
  split
  · next h =>
    subst h
    rfl
  split
  · next h =>
    subst h
    rfl
  split
  · next h =>
    subst h
    rfl
  split
  · next h =>
    subst h
    rfl
  · next hspace _ _ _ _ _ =>
    -- Two hexadecimal digits are enough behind the two zeros, since the character lies below the
    -- blank.
    have hcontrol : c.toNat < 32 := Char.not_le.1 hspace
    simp only [List.cons_append, List.nil_append, readText, codeUnit?_hexChar hcontrol,
      Option.bind_some]

/-- The characters of a text are read back up to the closing quote. -/
theorem readText_escaped (cs rest : List Char) :
    readText (cs.flatMap escapeChar ++ '"' :: rest) = some (cs.map Char.toNat, rest) := by
  induction cs with
  | nil => rfl
  | cons c cs ih =>
    rw [List.flatMap_cons, List.append_assoc, readText_escapeChar, ih]
    rfl

/-- Every character is the one with its code point. -/
private theorem characters?_map_toNat (cs : List Char) :
    characters? (cs.map Char.toNat) = some cs := by
  induction cs with
  | nil => rfl
  | cons c cs ih =>
    have hvalid : c.toNat.isValidChar := c.valid
    rw [List.map_cons, characters?.eq_def]
    simp only [if_pos hvalid, ih, Char.ofNat_toNat, Option.map_some]

/-- A text is read back behind its opening quote. -/
private theorem readString_escaped (s : String) (rest : List Char) :
    (readString (s.toList.flatMap escapeChar ++ '"' :: rest)).Reads s rest := by
  have hread := readText_escaped s.toList rest
  unfold readString
  split
  · next hnone => cases hnone.symm.trans hread
  · next units rest' hsome =>
    obtain ⟨rfl, rfl⟩ := Prod.mk.inj (Option.some.inj (hsome.symm.trans hread))
    rw [characters?_map_toNat, Option.map_some, String.ofList_toList]
    rfl

/-! ### Values -/

/-- A sign is read where it is the next character. -/
private theorem readSign_next {sign : Char} (hsign : isWhite sign = false) (cs : List Char) :
    (readSign (sign :: cs)).Reads sign cs := by
  rw [readSign, if_neg (Bool.eq_false_iff.1 hsign)]
  rfl

/-- A sign is read behind white space. -/
private theorem readSign_white {gap : List Char} (hgap : ∀ c ∈ gap, isWhite c = true) {sign : Char}
    (hsign : isWhite sign = false) (cs : List Char) :
    (readSign (gap ++ sign :: cs)).Reads sign cs := by
  induction gap with
  | nil => exact readSign_next hsign cs
  | cons c gap ih =>
    obtain ⟨hc, hgap⟩ := List.forall_mem_cons.1 hgap
    rw [List.cons_append, readSign, if_pos hc]
    exact (ih hgap).within _

/-- A line break and what comes behind it up to the next sign is white space. -/
private theorem isWhite_of_mem_newline (level : Nat) : ∀ c ∈ newline level, isWhite c = true := by
  intro c hc
  rcases List.mem_cons.1 hc with rfl | hc
  · rfl
  · rw [List.eq_of_mem_replicate hc]
    rfl

/-- The blank behind a colon is white space. -/
private theorem isWhite_of_mem_blank :
    ∀ c ∈ [' '], isWhite c = true := List.forall_mem_singleton.2 rfl

section Steps

variable {gap cs us rest : List Char} {v : Json} {vs : List Json} {m : String × Json}
  {ms : List (String × Json)}

/-- A quoted text is read as itself. -/
private theorem readValue_string (hgap : ∀ c ∈ gap, isWhite c = true) (s : String)
    (rest : List Char) : (readValue (gap ++ (quote s ++ rest))).Reads (.string s) rest := by
  have htext : quote s ++ rest = '"' :: (s.toList.flatMap escapeChar ++ '"' :: rest) := by
    simp [quote]
  rw [htext, readValue]
  refine (readSign_white hgap (by decide) _).andThen fun hlt => ?_
  rw [if_pos rfl]
  exact ((readString_escaped s rest).within hlt).as string

/-- A bracket begins an array. -/
private theorem readValue_array (hgap : ∀ c ∈ gap, isWhite c = true)
    (h : (readArray cs).Reads vs rest) : (readValue (gap ++ '[' :: cs)).Reads (.array vs) rest := by
  rw [readValue]
  refine (readSign_white hgap (by decide) _).andThen fun hlt => ?_
  rw [if_neg (by decide), if_pos rfl]
  exact (h.within hlt).as array

/-- A brace begins an object. -/
private theorem readValue_object (hgap : ∀ c ∈ gap, isWhite c = true)
    (h : (readObject cs).Reads ms rest) :
    (readValue (gap ++ '\x7b' :: cs)).Reads (.object ms) rest := by
  rw [readValue]
  refine (readSign_white hgap (by decide) _).andThen fun hlt => ?_
  rw [if_neg (by decide), if_neg (by decide), if_pos rfl]
  exact (h.within hlt).as object

/-- A bracket that closes at once closes an array without items. -/
private theorem readArray_closing (rest : List Char) : (readArray (']' :: rest)).Reads [] rest := by
  rw [readArray]
  refine (readSign_next (by decide) rest).andThen fun hlt => ?_
  rw [if_pos rfl]
  rfl

/-- Anything else is the first item, with more items behind it. -/
private theorem readArray_item {sign : Char} (hsign : (readSign cs).Reads sign us)
    (hne : sign ≠ ']')
    {us : List Char} (hv : (readValue cs).Reads v us) (hvs : (readItems us).Reads vs rest) :
    (readArray cs).Reads (v :: vs) rest := by
  rw [readArray]
  refine hsign.andThen fun _ => ?_
  rw [if_neg hne]
  exact hv.andThen fun hlt => (hvs.within hlt).as (v :: ·)

/-- The closing bracket ends the items. -/
private theorem readItems_closing (hgap : ∀ c ∈ gap, isWhite c = true) (rest : List Char) :
    (readItems (gap ++ ']' :: rest)).Reads [] rest := by
  rw [readItems]
  refine (readSign_white hgap (by decide) rest).andThen fun hlt => ?_
  rw [if_pos rfl]
  rfl

/-- Behind a comma there is another item. -/
private theorem readItems_comma (hv : (readValue cs).Reads v us)
    (hvs : (readItems us).Reads vs rest) : (readItems (',' :: cs)).Reads (v :: vs) rest := by
  rw [readItems]
  refine (readSign_next (by decide) cs).andThen fun hlt => ?_
  rw [if_neg (by decide), if_pos rfl]
  exact (hv.within hlt).andThen fun hlt' => (hvs.within hlt').as (v :: ·)

/-- A brace that closes at once closes an object without members. -/
private theorem readObject_closing (rest : List Char) :
    (readObject ('\x7d' :: rest)).Reads [] rest := by
  rw [readObject]
  refine (readSign_next (by decide) rest).andThen fun hlt => ?_
  rw [if_pos rfl]
  rfl

/-- A member is its key in quotes, a colon and its value. -/
private theorem readMember_quoted (hgap : ∀ c ∈ gap, isWhite c = true) (key : String)
    (h : (readValue cs).Reads v rest) :
    (readMember (gap ++ (quote key ++ ':' :: cs))).Reads (key, v) rest := by
  have htext : quote key ++ ':' :: cs =
      '"' :: (key.toList.flatMap escapeChar ++ '"' :: ':' :: cs) := by
    simp [quote]
  -- The key is read as a string, the colon as the next sign, and the value behind it.
  have hkey := readString_escaped key (':' :: cs)
  have hcolon : (readSign (':' :: cs)).Reads ':' cs := readSign_next (by decide) cs
  rw [htext, readMember]
  refine (readSign_white hgap (by decide) _).andThen fun hlt => ?_
  rw [if_pos rfl]
  refine (hkey.within hlt).andThen fun hlt' => (hcolon.within hlt').andThen fun hlt'' => ?_
  rw [if_pos rfl]
  exact (h.within hlt'').as (key, ·)

/-- Anything else is the first member, with more members behind it. -/
private theorem readObject_member (hgap : ∀ c ∈ gap, isWhite c = true) (key : String)
    (hv : (readValue cs).Reads v us) (hms : (readMembers us).Reads ms rest) :
    (readObject (gap ++ (quote key ++ ':' :: cs))).Reads ((key, v) :: ms) rest := by
  obtain ⟨tail, hsign⟩ : ∃ tail, (readSign (gap ++ (quote key ++ ':' :: cs))).Reads '"' tail :=
    ⟨_, readSign_white hgap (by decide) _⟩
  rw [readObject]
  refine hsign.andThen fun _ => ?_
  rw [if_neg (by decide)]
  exact (readMember_quoted hgap key hv).andThen fun hlt => (hms.within hlt).as ((key, v) :: ·)

/-- The closing brace ends the members. -/
private theorem readMembers_closing (hgap : ∀ c ∈ gap, isWhite c = true) (rest : List Char) :
    (readMembers (gap ++ '\x7d' :: rest)).Reads [] rest := by
  rw [readMembers]
  refine (readSign_white hgap (by decide) rest).andThen fun hlt => ?_
  rw [if_pos rfl]
  rfl

/-- Behind a comma there is another member. -/
private theorem readMembers_comma (hm : (readMember cs).Reads m us)
    (hms : (readMembers us).Reads ms rest) : (readMembers (',' :: cs)).Reads (m :: ms) rest := by
  rw [readMembers]
  refine (readSign_next (by decide) cs).andThen fun hlt => ?_
  rw [if_neg (by decide), if_pos rfl]
  exact (hm.within hlt).andThen fun hlt' => (hms.within hlt').as (m :: ·)

end Steps

/-- A written value starts with a sign that closes nothing. -/
private theorem exists_readSign_write {gap : List Char} (hgap : ∀ c ∈ gap, isWhite c = true)
    (level : Nat) (v : Json) (rest : List Char) :
    ∃ sign tail, (readSign (gap ++ (write level v ++ rest))).Reads sign tail ∧ sign ≠ ']' := by
  -- A value begins with its quote or its bracket, and so never with the bracket that closes an
  -- array.
  obtain ⟨sign, cs, hcons, hwhite, hne⟩ :
      ∃ sign cs, write level v = sign :: cs ∧ isWhite sign = false ∧ sign ≠ ']' := by
    match v with
    | string s => exact ⟨'"', _, by rw [write, quote]; rfl, by decide, by decide⟩
    | array [] => exact ⟨'[', _, by rw [write], by decide, by decide⟩
    | array (v :: vs) => exact ⟨'[', _, by rw [write]; rfl, by decide, by decide⟩
    | object [] => exact ⟨'\x7b', _, by rw [write], by decide, by decide⟩
    | object ((k, v) :: ms) => exact ⟨'\x7b', _, by rw [write]; rfl, by decide, by decide⟩
  rw [hcons]
  exact ⟨sign, _, readSign_white hgap hwhite _, hne⟩

mutual

/-- A written value is read back behind white space and in front of anything. -/
theorem readValue_write : ∀ (v : Json) (level : Nat) {gap : List Char},
    (∀ c ∈ gap, isWhite c = true) → ∀ rest : List Char,
      (readValue (gap ++ (write level v ++ rest))).Reads v rest
  | string s, level, gap, hgap, rest => by
    rw [write]
    exact readValue_string hgap s rest
  | array [], level, gap, hgap, rest => by
    rw [write]
    exact readValue_array hgap (readArray_closing rest)
  | array (v :: vs), level, gap, hgap, rest => by
    -- Behind the bracket stand the first value, the others each behind a comma, and the closing
    -- bracket.
    have htext : write level (array (v :: vs)) ++ rest =
        '[' :: (newline (level + 1) ++ (write (level + 1) v ++
          (writeItems (level + 1) vs ++ (newline level ++ ']' :: rest)))) := by
      simp [write]
    obtain ⟨sign, tail, hsign, hne⟩ := exists_readSign_write (isWhite_of_mem_newline (level + 1))
      (level + 1) v (writeItems (level + 1) vs ++ (newline level ++ ']' :: rest))
    have hv := readValue_write v (level + 1) (isWhite_of_mem_newline (level + 1))
      (writeItems (level + 1) vs ++ (newline level ++ ']' :: rest))
    have hvs := readItems_writeItems vs (level + 1) (isWhite_of_mem_newline level) rest
    rw [htext]
    exact readValue_array hgap (readArray_item hsign hne hv hvs)
  | object [], level, gap, hgap, rest => by
    rw [write]
    exact readValue_object hgap (readObject_closing rest)
  | object ((key, v) :: ms), level, gap, hgap, rest => by
    have htext : write level (object ((key, v) :: ms)) ++ rest =
        '\x7b' :: (newline (level + 1) ++ (quote key ++ ':' :: ([' '] ++ (write (level + 1) v ++
          (writeMembers (level + 1) ms ++ (newline level ++ '\x7d' :: rest)))))) := by
      simp [write]
    -- The blank behind the colon is the gap in front of the value.
    have hv := readValue_write v (level + 1) isWhite_of_mem_blank
      (writeMembers (level + 1) ms ++ (newline level ++ '\x7d' :: rest))
    have hms := readMembers_writeMembers ms (level + 1) (isWhite_of_mem_newline level) rest
    rw [htext]
    exact readValue_object hgap (readObject_member (isWhite_of_mem_newline _) key hv hms)

/-- Written items are read back up to the closing bracket. -/
private theorem readItems_writeItems : ∀ (vs : List Json) (level : Nat) {gap : List Char},
    (∀ c ∈ gap, isWhite c = true) → ∀ rest : List Char,
      (readItems (writeItems level vs ++ (gap ++ ']' :: rest))).Reads vs rest
  | [], level, gap, hgap, rest => by
    rw [writeItems]
    exact readItems_closing hgap rest
  | v :: vs, level, gap, hgap, rest => by
    have htext : writeItems level (v :: vs) ++ (gap ++ ']' :: rest) =
        ',' :: (newline level ++
          (write level v ++ (writeItems level vs ++ (gap ++ ']' :: rest)))) := by
      simp [writeItems]
    have hv := readValue_write v level (isWhite_of_mem_newline level)
      (writeItems level vs ++ (gap ++ ']' :: rest))
    rw [htext]
    exact readItems_comma hv (readItems_writeItems vs level hgap rest)

/-- Written members are read back up to the closing brace. -/
private theorem readMembers_writeMembers :
    ∀ (ms : List (String × Json)) (level : Nat) {gap : List Char},
    (∀ c ∈ gap, isWhite c = true) → ∀ rest : List Char,
      (readMembers (writeMembers level ms ++ (gap ++ '\x7d' :: rest))).Reads ms rest
  | [], level, gap, hgap, rest => by
    rw [writeMembers]
    exact readMembers_closing hgap rest
  | (key, v) :: ms, level, gap, hgap, rest => by
    have htext : writeMembers level ((key, v) :: ms) ++ (gap ++ '\x7d' :: rest) =
        ',' :: (newline level ++ (quote key ++ ':' :: ([' '] ++ (write level v ++
          (writeMembers level ms ++ (gap ++ '\x7d' :: rest)))))) := by
      simp [writeMembers]
    have hv := readValue_write v level isWhite_of_mem_blank
      (writeMembers level ms ++ (gap ++ '\x7d' :: rest))
    rw [htext]
    exact readMembers_comma (readMember_quoted (isWhite_of_mem_newline _) key hv)
      (readMembers_writeMembers ms level hgap rest)

end

/-- The text of a value is read as the value, also with white space around it. -/
theorem read?_write (lead trail : List Char) (hlead : ∀ c ∈ lead, isWhite c = true)
    (htrail : ∀ c ∈ trail, isWhite c = true) (v : Json) :
    read? (String.ofList (lead ++ (write 0 v ++ trail))) = some v := by
  have hread := readValue_write v 0 hlead trail
  rw [read?, String.toList_ofList, hread, Option.bind_some]
  exact if_pos (List.all_eq_true.2 htrail)

/-- The text of a value is read as the value. -/
theorem read?_pretty (v : Json) : read? v.pretty = some v := by
  have hread := read?_write [] [] nofun nofun v
  rwa [List.append_nil, List.nil_append] at hread

/-- No two values have the same text. -/
theorem pretty_injective {v w : Json} (h : v.pretty = w.pretty) : v = w := by
  have hread := read?_pretty v
  rw [h, read?_pretty] at hread
  exact (Option.some.inj hread).symm

end Tapestry.Json

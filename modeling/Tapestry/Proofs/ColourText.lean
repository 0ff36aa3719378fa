import Tapestry.Proofs.HexDigits
import Tapestry.Proofs.ReadBack

/-!
# The texts of colours

Which texts are colours, said without the readers. White space around a text does not count. What is
left is a name of the table in any case, or a number sign in front of hexadecimal digits: two for
each channel, the more significant one first, or one for each channel that stands for itself twice;
without digits for the opacity the colour is opaque. Hexadecimal digits alone are a colour too where
no name is expected.

## Key results

- `Colour.hexForm_iff`: which hexadecimal digits are read as a colour
- `Colour.ofHex_eq_ok`, `Colour.ofText_eq_ok`: which texts are read as a colour
- `Colour.ofText_ofHex_exact`: the texts of colours, the faults of all others, and colours read back
-/

namespace Tapestry

namespace Colour

open Text (hexValue? hexValue?_lt Surrounds toList_trimmed)

/-! ## Hexadecimal digits -/

/-- Whether a byte is written with two hexadecimal digits, the more significant one first. -/
def Channel (high low : Char) (b : UInt8) : Prop :=
  ∃ h l, hexValue? high = some h ∧ hexValue? low = some l ∧ b.toNat = 16 * h + l

/-- The colours that are written with hexadecimal digits. -/
inductive HexForm : List Char → Colour → Prop
  | rgb {r g b red green blue} (hr : Channel r r red) (hg : Channel g g green)
    (hb : Channel b b blue) : HexForm [r, g, b] ⟨red, green, blue, 255⟩
  | rgba {r g b a red green blue alpha} (hr : Channel r r red) (hg : Channel g g green)
    (hb : Channel b b blue) (ha : Channel a a alpha) :
    HexForm [r, g, b, a] ⟨red, green, blue, alpha⟩
  | rrggbb {r r' g g' b b' red green blue} (hr : Channel r r' red) (hg : Channel g g' green)
    (hb : Channel b b' blue) : HexForm [r, r', g, g', b, b'] ⟨red, green, blue, 255⟩
  | rrggbbaa {r r' g g' b b' a a' red green blue alpha} (hr : Channel r r' red)
    (hg : Channel g g' green) (hb : Channel b b' blue) (ha : Channel a a' alpha) :
    HexForm [r, r', g, g', b, b', a, a'] ⟨red, green, blue, alpha⟩

/-- Two digits are put together as the byte that is written with them. -/
private theorem channel_iff {high low : Char} {b : UInt8} :
    Channel high low b ↔
      ∃ h l, hexDigit? high = some h ∧ hexDigit? low = some l ∧ 16 * h + l = b := by
  -- Two digits of base 16 fit a byte, so the sum in bytes is the sum of numbers.
  have hbyte {h l : Nat} (hh : h < 16) (hl : l < 16) :
      (16 * h.toUInt8 + l.toUInt8).toNat = 16 * h + l := by
    simp
    omega
  constructor
  · rintro ⟨h, l, hhigh, hlow, hb⟩
    refine ⟨h.toUInt8, l.toUInt8, by rw [hexDigit?_eq, hhigh]; rfl,
      by rw [hexDigit?_eq, hlow]; rfl, UInt8.toNat_inj.1 ?_⟩
    rw [hbyte (hexValue?_lt hhigh) (hexValue?_lt hlow), hb]
  · rintro ⟨h, l, hhigh, hlow, rfl⟩
    rw [hexDigit?_eq] at hhigh hlow
    obtain ⟨m, hm, rfl⟩ := Option.map_eq_some_iff.1 hhigh
    obtain ⟨n, hn, rfl⟩ := Option.map_eq_some_iff.1 hlow
    exact ⟨m, n, hm, hn, hbyte (hexValue?_lt hm) (hexValue?_lt hn)⟩

/-- A single digit stands for itself twice. -/
private theorem channel_self_iff {digit : Char} {b : UInt8} :
    Channel digit digit b ↔ ∃ d, hexDigit? digit = some d ∧ 16 * d + d = b := by
  rw [channel_iff]
  constructor
  · rintro ⟨h, l, hh, hl, hb⟩
    obtain rfl := Option.some.inj (hh.symm.trans hl)
    exact ⟨h, hh, hb⟩
  · rintro ⟨d, hd, hb⟩
    exact ⟨d, d, hd, hd, hb⟩

/-- A colour is written with the digits that are read as its channels. -/
theorem hexForm_iff {cs : List Char} {c : Colour} :
    HexForm cs c ↔ ∃ ds, hexDigits cs = .ok ds ∧ ofDigits? ds = some c := by
  simp only [hexDigits_eq_ok]
  constructor
  -- The four forms have their digits in the order of the channels, one or two for each.
  · intro h
    cases h with
    | rgb hr hg hb =>
      obtain ⟨_, hred, rfl⟩ := channel_self_iff.1 hr
      obtain ⟨_, hgreen, rfl⟩ := channel_self_iff.1 hg
      obtain ⟨_, hblue, rfl⟩ := channel_self_iff.1 hb
      exact ⟨_, .cons hred (.cons hgreen (.cons hblue .nil)), rfl⟩
    | rgba hr hg hb ha =>
      obtain ⟨_, hred, rfl⟩ := channel_self_iff.1 hr
      obtain ⟨_, hgreen, rfl⟩ := channel_self_iff.1 hg
      obtain ⟨_, hblue, rfl⟩ := channel_self_iff.1 hb
      obtain ⟨_, halpha, rfl⟩ := channel_self_iff.1 ha
      exact ⟨_, .cons hred (.cons hgreen (.cons hblue (.cons halpha .nil))), rfl⟩
    | rrggbb hr hg hb =>
      obtain ⟨_, _, hred, hred', rfl⟩ := channel_iff.1 hr
      obtain ⟨_, _, hgreen, hgreen', rfl⟩ := channel_iff.1 hg
      obtain ⟨_, _, hblue, hblue', rfl⟩ := channel_iff.1 hb
      exact ⟨_, .cons hred (.cons hred' (.cons hgreen (.cons hgreen'
        (.cons hblue (.cons hblue' .nil))))), rfl⟩
    | rrggbbaa hr hg hb ha =>
      obtain ⟨_, _, hred, hred', rfl⟩ := channel_iff.1 hr
      obtain ⟨_, _, hgreen, hgreen', rfl⟩ := channel_iff.1 hg
      obtain ⟨_, _, hblue, hblue', rfl⟩ := channel_iff.1 hb
      obtain ⟨_, _, halpha, halpha', rfl⟩ := channel_iff.1 ha
      exact ⟨_, .cons hred (.cons hred' (.cons hgreen (.cons hgreen'
        (.cons hblue (.cons hblue' (.cons halpha (.cons halpha' .nil))))))), rfl⟩
  -- The number of digits decides the form.
  · rintro ⟨ds, hds, hcolour⟩
    unfold ofDigits? at hcolour
    split at hcolour
    · obtain rfl := Option.some.inj hcolour
      rcases hds with _ | ⟨hr, _ | ⟨hg, _ | ⟨hb, ⟨⟩⟩⟩⟩
      exact .rgb (channel_self_iff.2 ⟨_, hr, rfl⟩) (channel_self_iff.2 ⟨_, hg, rfl⟩)
        (channel_self_iff.2 ⟨_, hb, rfl⟩)
    · obtain rfl := Option.some.inj hcolour
      rcases hds with _ | ⟨hr, _ | ⟨hg, _ | ⟨hb, _ | ⟨ha, ⟨⟩⟩⟩⟩⟩
      exact .rgba (channel_self_iff.2 ⟨_, hr, rfl⟩) (channel_self_iff.2 ⟨_, hg, rfl⟩)
        (channel_self_iff.2 ⟨_, hb, rfl⟩) (channel_self_iff.2 ⟨_, ha, rfl⟩)
    · obtain rfl := Option.some.inj hcolour
      rcases hds with _ | ⟨hr, _ | ⟨hr', _ | ⟨hg, _ | ⟨hg', _ | ⟨hb, _ | ⟨hb', ⟨⟩⟩⟩⟩⟩⟩⟩
      exact .rrggbb (channel_iff.2 ⟨_, _, hr, hr', rfl⟩) (channel_iff.2 ⟨_, _, hg, hg', rfl⟩)
        (channel_iff.2 ⟨_, _, hb, hb', rfl⟩)
    · obtain rfl := Option.some.inj hcolour
      rcases hds with _ | ⟨hr, _ | ⟨hr', _ | ⟨hg, _ | ⟨hg', _ | ⟨hb, _ | ⟨hb',
        _ | ⟨ha, _ | ⟨ha', ⟨⟩⟩⟩⟩⟩⟩⟩⟩⟩
      exact .rrggbbaa (channel_iff.2 ⟨_, _, hr, hr', rfl⟩) (channel_iff.2 ⟨_, _, hg, hg', rfl⟩)
        (channel_iff.2 ⟨_, _, hb, hb', rfl⟩) (channel_iff.2 ⟨_, _, ha, ha', rfl⟩)
    · cases hcolour

/-! ## Names -/

/-- Whether characters are the name of a colour, in any ASCII case. -/
def NameOf (cs : List Char) (c : Colour) : Prop :=
  ∃ name, (name, c) ∈ named ∧ Text.lowerAscii cs = Text.lowerAscii name.toList

/-- A text names a colour when that name is in the list, in any ASCII case. -/
private theorem ofName?_eq_some {s : String} {c : Colour} :
    ofName? s = some c ↔ NameOf s.toList c := by
  -- The names in the table have small letters only, and none of them comes twice.
  have hsmall : ∀ x ∈ named, Text.lowerAscii x.1.toList = x.1.toList := by decide +kernel
  have hlookup : ∀ x ∈ named, named.lookup x.1 = some x.2 := by decide +kernel
  rw [ofName?]
  constructor
  · intro h
    obtain ⟨before, after, heq, -⟩ := List.lookup_eq_some_iff.1 h
    have hmem : (String.ofList (Text.lowerAscii s.toList), c) ∈ named :=
      heq ▸ List.mem_append_right _ List.mem_cons_self
    refine ⟨_, hmem, ?_⟩
    rw [hsmall _ hmem, String.toList_ofList]
  · rintro ⟨name, hmem, hname⟩
    rw [hname, hsmall _ hmem, String.ofList_toList, hlookup _ hmem]

/-! ## Colours -/

/-- The hexadecimal reader takes what is left of a text without its number sign. -/
private theorem ofHex_eq_ok_iff_dropHash {s : String} {c : Colour} :
    ofHex s = .ok c ↔ HexForm (dropHash (Text.trim s.toList)) c := by
  rw [hexForm_iff, ← toList_trimmed]
  simp only [ofHex]
  cases hexDigits (dropHash (Text.trimmed s).toList) with
  | error e => simp
  | ok ds =>
    cases hcolour : ofDigits? ds with
    | none => simp [hcolour]
    | some c' => simp [hcolour]

/-- A number sign is no digit. -/
private theorem dropHash_of_hexForm {digits : List Char} {c : Colour} (h : HexForm digits c) :
    dropHash digits = digits := by
  obtain ⟨ds, hds, -⟩ := hexForm_iff.1 h
  unfold dropHash
  split
  · cases hds
  · rfl

/-- A text is read as a colour by its digits exactly when it has the digits of the colour, with or
    without a number sign, and white space around them. -/
theorem ofHex_eq_ok {s : String} {c : Colour} :
    ofHex s = .ok c ↔ ∃ core digits, Surrounds s.toList core ∧
      (core = '#' :: digits ∨ core = digits) ∧ HexForm digits c := by
  rw [ofHex_eq_ok_iff_dropHash]
  constructor
  · intro h
    refine ⟨_, _, Text.surrounds_trim s.toList, ?_, h⟩
    -- The sign may be missing, and the digits are then the whole core.
    generalize Text.trim s.toList = core
    unfold dropHash
    split
    · exact .inl rfl
    · exact .inr rfl
  · rintro ⟨core, digits, hcore, hform, h⟩
    rw [hcore.trim_eq]
    rcases hform with rfl | rfl
    · exact h
    -- Digits hold no sign, so that none is dropped from them.
    · rwa [dropHash_of_hexForm h]

/-- A text is read as a colour exactly when it is the name of the colour or a number sign and the
    digits of the colour, with white space around it. -/
theorem ofText_eq_ok {s : String} {c : Colour} :
    ofText s = .ok c ↔ ∃ core, Surrounds s.toList core ∧
      (NameOf core c ∨ ∃ digits, core = '#' :: digits ∧ HexForm digits c) := by
  have hcore : (Text.trimmed s).toList = Text.trim s.toList := toList_trimmed s
  have hagain : Text.trim (Text.trimmed s).toList = Text.trim s.toList := by
    rw [hcore, Text.trim_trim]
  have hunique : (∃ core, Surrounds s.toList core ∧
      (NameOf core c ∨ ∃ digits, core = '#' :: digits ∧ HexForm digits c)) ↔
      NameOf (Text.trim s.toList) c ∨
        ∃ digits, Text.trim s.toList = '#' :: digits ∧ HexForm digits c := by
    simp only [← Text.trim_eq_iff, exists_eq_left']
  rw [hunique, ← hcore, ← ofName?_eq_some, ofText]
  cases hname : ofName? (Text.trimmed s) with
  | some c' =>
    -- A text with a name has no number sign in front.
    have hhash : ¬ ∃ digits, (Text.trimmed s).toList = '#' :: digits ∧ HexForm digits c := by
      rintro ⟨digits, hdigits, -⟩
      rw [ofName?_hash (by rw [hdigits]; rfl)] at hname
      cases hname
    simp [hhash]
  | none =>
    simp only [reduceCtorEq, false_or]
    split
    · next hhash =>
      obtain ⟨digits, hdigits⟩ := List.head?_eq_some_iff.1 hhash
      rw [ofHex_eq_ok_iff_dropHash, hagain, ← hcore, hdigits]
      simp [dropHash]
    · next hhash =>
      have hnone : ¬ ∃ digits, (Text.trimmed s).toList = '#' :: digits ∧ HexForm digits c := by
        rintro ⟨digits, hdigits, -⟩
        exact hhash (by rw [hdigits]; rfl)
      simp [hnone]

/-! ## Faults -/

/-- The faults of a text that is no colour: they hold the text without white space around it, or a
    character in it that is no digit. -/
def RefusedAs (core : List Char) (fault : ArgumentFault) : Prop :=
  fault = .notAColour (String.ofList core) ∨ fault = .invalidHexColour (String.ofList core) ∨
    ∃ d ∈ core, hexValue? d = none ∧ fault = .invalidHexDigit d

/-- What is left without the sign in front was there before. -/
private theorem mem_of_mem_dropHash {cs : List Char} {x : Char} (h : x ∈ dropHash cs) : x ∈ cs := by
  unfold dropHash at h
  split at h
  · exact List.mem_cons_of_mem _ h
  · exact h

/-- A text that is refused as digits is refused with its trimmed form. -/
private theorem ofHex_eq_error {s : String} {fault : ArgumentFault} (h : ofHex s = .error fault) :
    RefusedAs (Text.trim s.toList) fault := by
  simp only [ofHex] at h
  split at h
  -- A character that is no digit is in the text, since the sign is all that was dropped.
  · next e hdigits =>
    cases h
    obtain ⟨d, hd, hnone, rfl⟩ := hexDigits_eq_error hdigits
    rw [toList_trimmed] at hd
    exact .inr (.inr ⟨d, mem_of_mem_dropHash hd, hnone, rfl⟩)
  · split at h
    -- Otherwise the number of digits is wrong.
    · cases h
    · cases h
      exact .inr (.inl rfl)

/-- A text that is refused as a colour, be it a name or digits, is refused with its trimmed form. -/
theorem ofText_eq_error {s : String} {fault : ArgumentFault} (h : ofText s = .error fault) :
    RefusedAs (Text.trim s.toList) fault := by
  simp only [ofText] at h
  split at h
  · cases h
  · split at h
    · have hrefused := ofHex_eq_error h
      rwa [toList_trimmed, Text.trim_trim] at hrefused
    · cases h
      exact .inl rfl

/-- Whether reading a text that has these characters between its white space is a bad argument. -/
def BadArgument (core : List Char) (result : Except ArgumentFault Colour) : Prop :=
  ∃ fault, result.mapError EvalError.fault = .error (.badArgument "" fault) ∧ RefusedAs core fault

/-- What only fails with the faults of a text gives a colour or is a bad argument. -/
private theorem ok_or_badArgument {core : List Char} {result : Except ArgumentFault Colour}
    (h : ∀ fault, result = .error fault → RefusedAs core fault) :
    (∃ c, result = .ok c) ∨ BadArgument core result := by
  cases result with
  | ok c => exact .inl ⟨c, rfl⟩
  | error fault => exact .inr ⟨fault, rfl, h fault rfl⟩

/-- A text is a colour exactly when, without the white space around it, it is a name of the table in
    any ASCII case, or a number sign in front of 3, 4, 6 or 8 hexadecimal digits; the hexadecimal
    reader takes the same digits with or without the number sign. Every other text is a bad
    argument, and both readers read a colour back from its text. -/
theorem ofText_ofHex_exact :
    (∀ s c, ofText s = .ok c ↔ ∃ core, Surrounds s.toList core ∧
      (NameOf core c ∨ ∃ digits, core = '#' :: digits ∧ HexForm digits c)) ∧
      (∀ s c, ofHex s = .ok c ↔ ∃ core digits, Surrounds s.toList core ∧
        (core = '#' :: digits ∨ core = digits) ∧ HexForm digits c) ∧
      (∀ s, (∃ c, ofText s = .ok c) ∨ BadArgument (Text.trim s.toList) (ofText s)) ∧
      (∀ s, (∃ c, ofHex s = .ok c) ∨ BadArgument (Text.trim s.toList) (ofHex s)) ∧
      ∀ c : Colour, ofText c.render = .ok c ∧ ofHex c.render = .ok c :=
  ⟨fun _ _ => ofText_eq_ok, fun _ _ => ofHex_eq_ok,
    fun _ => ok_or_badArgument fun _ => ofText_eq_error,
    fun _ => ok_or_badArgument fun _ => ofHex_eq_error,
    fun c => ⟨ofText_render c, ofHex_render c⟩⟩

/-- A short form with an opacity is read, two number signs and digits outside ASCII are not. -/
example :
    ofText " #F008 " = .ok ⟨255, 0, 0, 136⟩ ∧ ofHex "##fff" = .error (.invalidHexDigit '#') ∧
      ofText "#\u0661\u0661\u0661" = .error (.invalidHexDigit '\u0661') := by
  decide +kernel

end Colour

end Tapestry

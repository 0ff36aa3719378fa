import Tapestry.Proofs.Alike
import Tapestry.Proofs.Trimming

/-!
# Values that are read back

The texts that numbers, colours and sizes are written as are read as the same numbers, colours and
sizes. A colour is written with a number sign and two hexadecimal digits for each channel, so that
no name of a colour gets in the way, and a size with one letter between two numerals, which have no
letters in them.

## Key results

- `wordOfText_toString`: a number below the word limit is read back from its text
- `Colour.ofHex_render`, `Colour.ofText_render`: a colour is read back from its text
- `Size.ofText_render`: a size in range is read back from its text
-/

namespace Tapestry

/-! ## Numbers -/

/-- A number is no keyword. -/
theorem equals_not_mem_toString (n : Nat) : '=' ∉ (toString n).toList := by
  intro h
  have hdigit := Text.isDigit_of_mem_toString h
  exact absurd hdigit (by decide)

/-- A number below the word limit is read back from its text, a larger one is refused. -/
theorem wordOfText_toString (n : Nat) (what : String) :
    wordOfText (toString n) what =
      if n < Text.wordLimit then .ok n
      else .error (.fault (.notAnInteger what (toString n))) := by
  rw [wordOfText, Text.readWord_toString]
  by_cases h : n < Text.wordLimit
  · rw [if_pos h, if_pos h]
  · rw [if_neg h, if_neg h]

namespace Colour

/-! ## Colours -/

/-- What holds of the sixteen digits holds of every byte below 16. -/
private theorem of_digits {p : UInt8 → Prop} (h : ∀ n : Fin 16, p (.ofNat n)) {d : UInt8}
    (hd : d < 16) : p d := by
  have hdigit := h ⟨d.toNat, UInt8.lt_iff_toNat_lt.1 hd⟩
  rwa [UInt8.ofNat_toNat] at hdigit

/-- A digit is read back. -/
private theorem hexDigit?_hexChar {d : UInt8} (h : d < 16) : hexDigit? (hexChar d) = some d :=
  of_digits (p := fun d => hexDigit? (hexChar d) = some d) (by decide) h

/-- The two digits of a byte are below 16. -/
private theorem digits_lt (b : UInt8) : b / 16 < 16 ∧ b % 16 < 16 := by
  have := b.toNat_lt
  simp only [UInt8.lt_iff_toNat_lt, UInt8.toNat_div, UInt8.toNat_mod, UInt8.reduceToNat]
  omega

/-- The two digits of a byte are read back in front of others. -/
private theorem hexDigits_hexPair (b : UInt8) {cs : List Char} {digits : List UInt8}
    (h : hexDigits cs = .ok digits) :
    hexDigits (hexPair b ++ cs) = .ok (b / 16 :: b % 16 :: digits) := by
  have hlt := digits_lt b
  have hhigh := hexDigit?_hexChar hlt.1
  have hlow := hexDigit?_hexChar hlt.2
  simp [hexPair, hexDigits, hhigh, hlow, h, Except.map]

/-- A byte is put together from its two digits. -/
private theorem byte_eq (b : UInt8) : 16 * (b / 16) + b % 16 = b := by
  have := b.toNat_lt
  apply UInt8.toNat_inj.1
  simp
  omega

/-- The characters of a colour behind the number sign. -/
def digitText (c : Colour) : List Char :=
  hexPair c.red ++ (hexPair c.green ++ (hexPair c.blue ++
    if c.alpha = 255 then [] else hexPair c.alpha))

theorem toList_render (c : Colour) : c.render.toList = '#' :: c.digitText := by
  rw [render, String.toList_ofList, digitText]
  split <;> simp

/-- The digits of a colour are read back as its channels. -/
private theorem ofDigits?_digitText (c : Colour) :
    ∃ digits, hexDigits c.digitText = .ok digits ∧ ofDigits? digits = some c := by
  by_cases hopaque : c.alpha = 255
  · have hread := hexDigits_hexPair c.red (hexDigits_hexPair c.green
      (hexDigits_hexPair c.blue (show hexDigits [] = .ok [] from rfl)))
    refine ⟨_, by rw [digitText, if_pos hopaque]; exact hread, ?_⟩
    simp only [ofDigits?, rgb, byte_eq, ← hopaque]
  · have hread := hexDigits_hexPair c.red (hexDigits_hexPair c.green
      (hexDigits_hexPair c.blue (hexDigits_hexPair c.alpha (show hexDigits [] = .ok [] from rfl))))
    rw [List.append_nil] at hread
    refine ⟨_, by rw [digitText, if_neg hopaque]; exact hread, ?_⟩
    simp only [ofDigits?, byte_eq]

/-- There is no white space in the text of a colour. -/
private theorem trimmed_render (c : Colour) : Text.trimmed c.render = c.render := by
  have hdigit {d : UInt8} (h : d < 16) : Text.isSpace (hexChar d) = false :=
    of_digits (p := fun d => Text.isSpace (hexChar d) = false) (by decide) h
  have hpair (b : UInt8) : ∀ x ∈ hexPair b, Text.isSpace x = false := by
    have hlt := digits_lt b
    simp [hexPair, hdigit hlt.1, hdigit hlt.2]
  apply Text.trimmed_eq
  rw [toList_render, List.forall_mem_cons]
  refine ⟨by decide, fun x hx => ?_⟩
  simp only [digitText, List.mem_append] at hx
  rcases hx with hx | hx | hx | hx
  · exact hpair _ x hx
  · exact hpair _ x hx
  · exact hpair _ x hx
  · split at hx
    · cases hx
    · exact hpair _ x hx

/-- A colour is read back from its digits behind a number sign. -/
theorem ofHex_render (c : Colour) : ofHex c.render = .ok c := by
  obtain ⟨digits, hdigits, hcolour⟩ := c.ofDigits?_digitText
  simp only [ofHex, trimmed_render, toList_render, dropHash, hdigits, hcolour]

/-- No name of a colour starts with a number sign. -/
theorem ofName?_hash {s : String} (h : s.toList.head? = some '#') : ofName? s = none := by
  have hnamed : ∀ x ∈ named, x.1.toList.head? ≠ some '#' := by decide +kernel
  rw [ofName?, List.lookup_eq_none_iff]
  intro x hx
  rw [bne_iff_ne]
  intro heq
  apply hnamed x hx
  rw [← heq, String.toList_ofList, Text.lowerAscii, List.head?_map, h]
  rfl

/-- A colour is read back from its text. -/
theorem ofText_render (c : Colour) : ofText c.render = .ok c := by
  have hhash : c.render.toList.head? = some '#' := by rw [toList_render, List.head?_cons]
  simp only [ofText, trimmed_render, ofName?_hash hhash, hhash, ofHex_render, ↓reduceIte]

end Colour

/-! ## Sizes -/

/-- The text of a size is cut into the two numerals. -/
theorem Size.splitOnce_render (s : Size) :
    Text.splitOnce isSeparator s.render.toList =
      some ((toString s.width).toList, (toString s.height).toList) := by
  have htext : s.render.toList =
      (toString s.width).toList ++ 'x' :: (toString s.height).toList := by
    have hletter : (toString "x").toList = ['x'] := rfl
    simp [render, hletter]
  -- No digit of the width is the letter between the two numerals.
  have hdigits : ∀ c ∈ (toString s.width).toList, isSeparator c = false := by
    intro c hc
    have hdigit := Text.isDigit_of_mem_toString hc
    by_contra hseparator
    simp only [isSeparator, Bool.not_eq_false, Bool.or_eq_true, beq_iff_eq] at hseparator
    rcases hseparator with rfl | rfl <;> exact absurd hdigit (by decide)
  rw [htext, splitOnce_append rfl, splitOnce_eq_none hdigits]

/-- A size in range is read back from its text. -/
theorem Size.ofText_render {s : Size} (hwidth : 0 < s.width ∧ s.width ≤ maxSide)
    (hheight : 0 < s.height ∧ s.height ≤ maxSide) : ofText s.render = .ok s := by
  have hword := maxSide_lt_wordLimit
  have hwide : s.width < Text.wordLimit := by omega
  have hhigh : s.height < Text.wordLimit := by omega
  rw [ofText, splitOnce_render]
  simp only [Text.readWord_toString, if_pos hwide, if_pos hhigh]
  rw [if_neg (by omega), check, if_pos ⟨hwidth.2, hheight.2⟩]

end Tapestry

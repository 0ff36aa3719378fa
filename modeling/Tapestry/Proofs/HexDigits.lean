import Mathlib.Data.List.Forall2
import Tapestry.Colour
import Tapestry.Proofs.Results

/-!
# Hexadecimal digits

The number that a hexadecimal digit stands for is its place among the sixteen digits, which may be
small or capital letters from ten on. No character outside ASCII is a digit. The reader of colours
takes characters when each of them is a digit, and otherwise names the first one that is not.

## Key results

- `Text.hexValue?_lt`: a digit stands for a number below 16
- `Text.hexValue?_of_le`: the digits are ASCII characters
- `Colour.hexDigits_eq_ok`, `Colour.hexDigits_eq_error`: which characters are read as digits
-/

namespace Tapestry

namespace Text

/-- The number that a hexadecimal digit in either case stands for. -/
def hexValue? (c : Char) : Option Nat :=
  ("0123456789abcdef".toList.idxOf? c).or ("0123456789ABCDEF".toList.idxOf? c)

/-- A digit stands for a number below the base. -/
theorem hexValue?_lt {c : Char} {n : Nat} (h : hexValue? c = some n) : n < 16 := by
  rw [hexValue?, Option.or_eq_some_iff] at h
  rcases h with h | ⟨-, h⟩
  · exact (List.findIdx?_eq_some_iff_findIdx_eq.1 h).1
  · exact (List.findIdx?_eq_some_iff_findIdx_eq.1 h).1

/-- No character outside of ASCII is a digit. -/
theorem hexValue?_of_le {c : Char} (h : 128 ≤ c.toNat) : hexValue? c = none := by
  have hsmall : "0123456789abcdef".toList.all (·.toNat < 128) = true := by decide +kernel
  have hcapital : "0123456789ABCDEF".toList.all (·.toNat < 128) = true := by decide +kernel
  rw [hexValue?, Option.or_eq_none_iff, List.idxOf?_eq_none_iff, List.idxOf?_eq_none_iff]
  constructor
  · intro hmem
    have := of_decide_eq_true (List.all_eq_true.1 hsmall c hmem)
    omega
  · intro hmem
    have := of_decide_eq_true (List.all_eq_true.1 hcapital c hmem)
    omega

end Text

namespace Colour

open Text (hexValue? hexValue?_of_le)

/-- A digit is read as the number that it stands for. -/
theorem hexDigit?_eq (c : Char) : hexDigit? c = (hexValue? c).map Nat.toUInt8 := by
  by_cases hc : c.toNat < 128
  -- There are few enough ASCII characters to try them all.
  · have hascii : ∀ n : Fin 128,
        hexDigit? (Char.ofNat n) = (hexValue? (Char.ofNat n)).map Nat.toUInt8 := by
      decide +kernel
    have hdigit := hascii ⟨c.toNat, hc⟩
    rwa [Char.ofNat_toNat] at hdigit
  · -- Beyond ASCII there are no digits.
    have hle : ∀ d : Char, d.toNat < 128 → ¬ c ≤ d := by
      intro d hd hcd
      have : c.toNat ≤ d.toNat := hcd
      omega
    rw [hexValue?_of_le (by omega), Option.map_none]
    simp [hexDigit?, hle]

/-- Digits are read when each of them is one. -/
theorem hexDigits_eq_ok {cs : List Char} {ds : List UInt8} :
    hexDigits cs = .ok ds ↔ List.Forall₂ (fun c d => hexDigit? c = some d) cs ds := by
  -- The induction is on the digits, the first of which may be the one that is refused.
  induction cs generalizing ds with
  | nil => simp [hexDigits, eq_comm]
  | cons c cs ih =>
    rw [hexDigits, List.forall₂_cons_left_iff]
    cases hc : hexDigit? c with
    | none => simp
    | some d =>
      simp only [Except.map_eq_ok, ih, Option.some.injEq]
      simp [eq_comm]

/-- Every character that is read as a digit is one. -/
theorem exists_hexDigit?_of_mem {cs : List Char} {ds : List UInt8} (h : hexDigits cs = .ok ds)
    {c : Char} (hc : c ∈ cs) : ∃ d, hexDigit? c = some d := by
  have hdigits := hexDigits_eq_ok.1 h
  clear h
  induction hdigits with
  | nil => cases hc
  | cons hd _ ih =>
    rcases List.mem_cons.1 hc with rfl | hc
    · exact ⟨_, hd⟩
    · exact ih hc

/-- The first character that is no digit is the fault. -/
theorem hexDigits_eq_error {cs : List Char} {fault : ArgumentFault}
    (h : hexDigits cs = .error fault) :
    ∃ d ∈ cs, hexValue? d = none ∧ fault = .invalidHexDigit d := by
  induction cs with
  | nil => cases h
  | cons c cs ih =>
    rw [hexDigits] at h
    cases hc : hexDigit? c with
    -- The first digit that is none is reported.
    | none =>
      rw [hc] at h
      cases h
      rw [hexDigit?_eq, Option.map_eq_none_iff] at hc
      exact ⟨c, List.mem_cons_self, hc, rfl⟩
    | some d =>
      rw [hc] at h
      obtain ⟨d', hd', hnone, rfl⟩ := ih (Except.map_eq_error.1 h)
      exact ⟨d', List.mem_cons_of_mem c hd', hnone, rfl⟩

end Colour

end Tapestry

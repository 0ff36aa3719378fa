import Mathlib.Data.Nat.Digits.Defs
import Tapestry.Proofs.ReadBack

/-!
# The texts of sizes

Which texts are numbers and sizes, said without the readers. A numeral is one or more ASCII digits,
perhaps behind a plus sign, and stands for the number with these decimal digits, however many there
are. A size is two numerals around the first separator. The reader of sizes takes such a text
exactly when both numbers are in range; a number that fits no machine word is refused like one that
is too large, so nothing wraps around.

## Key results

- `Text.readNat_dropPlus_eq_some`, `Text.readWord_eq_some`: which texts are read as a number
- `Size.writtenAs_iff`: a text is that of a size when it can be cut into two numerals
- `Size.ofText_eq_ok`: which texts are read as a size
- `Size.ofText_exact`: the texts of sizes, the faults of all others, and sizes read back
-/

namespace Tapestry

namespace Text

/-! ## Numerals -/

/-- The number that an ASCII digit stands for. -/
def digitValue (c : Char) : Nat := c.toNat - '0'.toNat

/-- Whether characters are the decimal digits of a number, the last one of which counts ones. Zeros
    may stand in front. -/
structure DigitsOf (cs : List Char) (n : Nat) : Prop where
  ne_nil : cs ≠ []
  digits : ∀ c ∈ cs, c.isDigit = true
  value : n = Nat.ofDigits 10 (cs.reverse.map digitValue)

/-- Whether characters are the digits of a number, perhaps behind a plus sign. -/
def Numeral (cs : List Char) (n : Nat) : Prop :=
  DigitsOf cs n ∨ ∃ ds, cs = '+' :: ds ∧ DigitsOf ds n

/-- Adding digits up from the front gives the same number as weighing each with its place. -/
private theorem ofDigitChars_eq_ofDigits (cs : List Char) :
    Nat.ofDigitChars 10 cs 0 = Nat.ofDigits 10 (cs.reverse.map digitValue) := by
  induction cs with
  | nil => rfl
  | cons c cs ih =>
    -- The first digit counts as often as there are digits behind it.
    have hlength : (cs.reverse.map digitValue).length = cs.length := by simp
    calc Nat.ofDigitChars 10 (c :: cs) 0
      _ = 10 ^ cs.length * digitValue c + Nat.ofDigitChars 10 cs 0 := by
        rw [Nat.ofDigitChars_cons, Nat.ofDigitChars_eq_ofDigitChars_zero, Nat.mul_zero,
          Nat.zero_add, digitValue]
      _ = Nat.ofDigits 10 (cs.reverse.map digitValue) + 10 ^ cs.length * digitValue c := by
        rw [ih, Nat.add_comm]
      _ = _ := by
        rw [List.reverse_cons, List.map_append, List.map_singleton, Nat.ofDigits_append, hlength,
          Nat.ofDigits_singleton]

/-- A number is read from its digits. -/
private theorem readNat_eq_some {cs : List Char} {n : Nat} :
    readNat cs = some n ↔ DigitsOf cs n := by
  simp only [readNat, List.all_eq_true]
  constructor
  · intro h
    split at h
    · next hcs =>
      obtain rfl := Option.some.inj h
      exact ⟨hcs.1, hcs.2, ofDigitChars_eq_ofDigits cs⟩
    · cases h
  · rintro ⟨hne, hdigits, rfl⟩
    rw [if_pos ⟨hne, hdigits⟩, ofDigitChars_eq_ofDigits]

/-- A plus sign is no digit, so it is only dropped where a numeral may have one. -/
theorem readNat_dropPlus_eq_some {cs : List Char} {n : Nat} :
    readNat (dropPlus cs) = some n ↔ Numeral cs n := by
  rw [readNat_eq_some, Numeral]
  unfold dropPlus
  split
  · next ds =>
    have hplus : ¬ DigitsOf ('+' :: ds) n :=
      fun h => absurd (h.digits '+' List.mem_cons_self) (by decide)
    simp [hplus]
  · next hnone =>
    have hplus : ¬ ∃ ds, cs = '+' :: ds ∧ DigitsOf ds n :=
      fun ⟨ds, hds, _⟩ => hnone ds hds
    simp [hplus]

/-- The text of a number is a numeral of that number only. -/
private theorem numeral_toString {n m : Nat} : Numeral (toString n).toList m ↔ m = n := by
  rw [← readNat_dropPlus_eq_some, toList_toString, dropPlus_toDigits, readNat_toDigits,
    Option.some.injEq, eq_comm]

/-- A word is read from a numeral below the limit. -/
theorem readWord_eq_some {cs : List Char} {n : Nat} :
    readWord cs = some n ↔ Numeral cs n ∧ n < wordLimit := by
  rw [readWord, Option.filter_eq_some_iff, readNat_dropPlus_eq_some, decide_eq_true_iff]

/-- Where a text is cut. -/
private theorem splitOnce_eq_some_iff {p : Char → Bool} {cs a b : List Char} :
    splitOnce p cs = some (a, b) ↔
      ∃ c, p c = true ∧ cs = a ++ c :: b ∧ ∀ x ∈ a, p x = false := by
  constructor
  · exact splitOnce_eq_some
  · rintro ⟨c, hc, rfl, ha⟩
    rw [splitOnce_append hc, splitOnce_eq_none ha]

end Text

namespace Size

open Text (Numeral readWord readNat dropPlus splitOnce wordLimit)

/-! ## Sizes -/

/-- Whether a text is that of a size: two numerals around its first separator. -/
def WrittenAs (size : Size) (s : String) : Prop :=
  ∃ w x h, s.toList = w ++ x :: h ∧ (∀ c ∈ w, c ≠ 'x' ∧ c ≠ 'X') ∧ (x = 'x' ∨ x = 'X') ∧
    Numeral w size.width ∧ Numeral h size.height

/-- A side is separated from the other by an x of either case. -/
private theorem isSeparator_eq_true {c : Char} : isSeparator c = true ↔ c = 'x' ∨ c = 'X' := by
  simp [isSeparator]

/-- Nothing else separates them. -/
private theorem isSeparator_eq_false {c : Char} : isSeparator c = false ↔ c ≠ 'x' ∧ c ≠ 'X' := by
  simp [isSeparator]

/-- A text is that of a size when the parts before and behind the first separator are numerals. -/
theorem writtenAs_iff {size : Size} {s : String} :
    size.WrittenAs s ↔ ∃ w h, splitOnce isSeparator s.toList = some (w, h) ∧
      Numeral w size.width ∧ Numeral h size.height := by
  simp only [WrittenAs, Text.splitOnce_eq_some_iff, isSeparator_eq_true, isSeparator_eq_false]
  constructor
  · rintro ⟨w, x, h, hs, hw, hx, hwidth, hheight⟩
    exact ⟨w, h, ⟨x, hx, hs, hw⟩, hwidth, hheight⟩
  · rintro ⟨w, h, ⟨x, hx, hs, hw⟩, hwidth, hheight⟩
    exact ⟨w, x, h, hs, hw, hx, hwidth, hheight⟩

/-- A text is read as the size that it is the text of, when neither number is zero and both are
    machine words. All other texts are invalid. -/
private theorem ofText_cases (s : String) :
    (∃ size : Size, size.WrittenAs s ∧ (0 < size.width ∧ size.width < wordLimit) ∧
      (0 < size.height ∧ size.height < wordLimit) ∧ ofText s = size.check) ∨
      ofText s = .error (.invalidSize s) := by
  unfold ofText
  split
  · exact .inr rfl
  · next w h hcut =>
    split
    · next width height hwidth hheight =>
      -- Both sides are read as numbers before either is looked at, and neither may be 0.
      obtain ⟨hw, hwlimit⟩ := Text.readWord_eq_some.1 hwidth
      obtain ⟨hh, hhlimit⟩ := Text.readWord_eq_some.1 hheight
      split
      · exact .inr rfl
      · next hzero =>
        obtain ⟨hw0, hh0⟩ := not_or.1 hzero
        have hwritten : WrittenAs ⟨width, height⟩ s := writtenAs_iff.2 ⟨w, h, hcut, hw, hh⟩
        exact .inl ⟨_, hwritten, ⟨Nat.pos_of_ne_zero hw0, hwlimit⟩,
          ⟨Nat.pos_of_ne_zero hh0, hhlimit⟩, rfl⟩
    · exact .inr rfl

/-- A text is read as a size exactly when it is the text of the size, and the size is in range. -/
theorem ofText_eq_ok {s : String} {size : Size} :
    ofText s = .ok size ↔ size.WrittenAs s ∧ (0 < size.width ∧ size.width ≤ maxSide) ∧
      (0 < size.height ∧ size.height ≤ maxSide) := by
  constructor
  · intro hread
    rcases ofText_cases s with ⟨size', hwritten, hw, hh, heq⟩ | heq
    · rw [heq] at hread
      obtain ⟨rfl, hwide, hhigh⟩ := check_eq_ok.1 hread
      exact ⟨hwritten, ⟨hw.1, hwide⟩, hh.1, hhigh⟩
    · rw [heq] at hread
      cases hread
  · rintro ⟨hwritten, hw, hh⟩
    obtain ⟨w, h, hcut, hwidth, hheight⟩ := writtenAs_iff.1 hwritten
    -- Both numbers are machine words, far below the limit.
    have hlimit := maxSide_lt_wordLimit
    have hw' := Text.readWord_eq_some.2 ⟨hwidth, by omega⟩
    have hh' := Text.readWord_eq_some.2 ⟨hheight, by omega⟩
    simp only [ofText, hcut, hw', hh']
    rw [if_neg (by omega)]
    exact check_eq_ok.2 ⟨rfl, hw.2, hh.2⟩

/-- Every other text is no size, or that of a size with a side above the limit. -/
theorem ofText_eq_error {s : String} (h : ∀ size, ofText s ≠ .ok size) :
    ofText s = .error (.invalidSize s) ∨
      ∃ size : Size, size.WrittenAs s ∧ (maxSide < size.width ∨ maxSide < size.height) ∧
        ofText s = .error (.tooLarge size.width size.height) := by
  rcases ofText_cases s with ⟨size, hwritten, -, -, heq⟩ | heq
  · rw [heq]
    right
    by_cases hin : size.width ≤ maxSide ∧ size.height ≤ maxSide
    · exact absurd (heq.trans (check_eq_ok.2 ⟨rfl, hin⟩)) (h size)
    · exact ⟨size, hwritten, by omega, if_neg hin⟩
  · exact .inl heq

/-- The text that a size is rendered as is that of no other size. -/
private theorem writtenAs_render {size other : Size} :
    other.WrittenAs size.render ↔ other = size := by
  simp only [writtenAs_iff, splitOnce_render, Option.some.injEq, Prod.mk.injEq]
  constructor
  · rintro ⟨w, h, ⟨rfl, rfl⟩, hwidth, hheight⟩
    obtain ⟨width, height⟩ := other
    obtain rfl := Text.numeral_toString.1 hwidth
    obtain rfl := Text.numeral_toString.1 hheight
    rfl
  · rintro rfl
    exact ⟨_, _, ⟨rfl, rfl⟩, Text.numeral_toString.2 rfl, Text.numeral_toString.2 rfl⟩

/-- A text is read as a size exactly when it is two numerals around its first `x` or `X`, both of
    them from 1 to 16384. Every other text is a bad argument: an invalid size, or one with a side
    above the limit, however many digits that has. A size is read back from the text that it is
    rendered as exactly when it is in range. -/
theorem ofText_exact :
    (∀ s size, ofText s = .ok size ↔
      size.WrittenAs s ∧ (1 ≤ size.width ∧ size.width ≤ 16384) ∧
        (1 ≤ size.height ∧ size.height ≤ 16384)) ∧
      (∀ s, (∃ size, ofText s = .ok size) ∨ ∃ fault,
        (ofText s).mapError EvalError.fault = .error (.badArgument "" fault) ∧
          (fault = .invalidSize s ∨ ∃ size : Size, size.WrittenAs s ∧
            (16384 < size.width ∨ 16384 < size.height) ∧
              fault = .tooLarge size.width size.height)) ∧
      ∀ size : Size,
        if (1 ≤ size.width ∧ size.width ≤ 16384) ∧ (1 ≤ size.height ∧ size.height ≤ 16384) then
          ofText size.render = .ok size
        else ∃ fault,
          (ofText size.render).mapError EvalError.fault = .error (.badArgument "" fault) := by
  refine ⟨fun s size => ofText_eq_ok, fun s => ?_, fun size => ?_⟩
  · by_cases hread : ∃ size, ofText s = .ok size
    · exact .inl hread
    · right
      rcases ofText_eq_error (not_exists.1 hread) with heq | ⟨size, hwritten, hlarge, heq⟩
      · exact ⟨_, by rw [heq]; rfl, .inl rfl⟩
      · exact ⟨_, by rw [heq]; rfl, .inr ⟨size, hwritten, hlarge, rfl⟩⟩
  · split
    · next hrange => exact ofText_eq_ok.2 ⟨writtenAs_render.2 rfl, hrange⟩
    · next hrange =>
      -- Only the size itself could be read, and it is not in range.
      have hnone : ∀ other, ofText size.render ≠ .ok other := by
        intro other hread
        obtain ⟨hwritten, hother⟩ := ofText_eq_ok.1 hread
        rw [writtenAs_render.1 hwritten] at hother
        exact hrange hother
      rcases ofText_eq_error hnone with heq | ⟨_, _, _, heq⟩
      · exact ⟨_, by rw [heq]; rfl⟩
      · exact ⟨_, by rw [heq]; rfl⟩

/-- Leading zeros and a plus sign are read, a second separator and a wrapped number are not. -/
example :
    ofText "+007X16384" = .ok ⟨7, 16384⟩ ∧ ofText "1x2x3" = .error (.invalidSize "1x2x3") ∧
      ofText "4294967297x1" = .error (.invalidSize "4294967297x1") := by
  decide +kernel

end Size

end Tapestry

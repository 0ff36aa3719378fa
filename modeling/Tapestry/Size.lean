import Tapestry.Image
import Tapestry.Text.Numeral

/-!
# Sizes

The width and height of an image that does not exist yet. `Size.check` is the one place where a size
is compared with `maxSide`; `Size.scale` multiplies both sides, and `Size.ofText` reads `WxH`.

* `check_eq_ok`, `exists_scale_iff`  when a size passes, and when its multiple does
-/

namespace Tapestry

/-- A width and a height. -/
structure Size where
  width : Nat
  height : Nat
  deriving DecidableEq, Repr, Inhabited

/-- Every side within the limit is a machine word. -/
theorem maxSide_lt_wordLimit : maxSide < Text.wordLimit := by decide

namespace Size

/-- The text `WxH`. -/
def render (s : Size) : String := s!"{s.width}x{s.height}"

/-- A size that an image may have: neither side is above `maxSide`. -/
def check (s : Size) : Except ArgumentFault Size :=
  if s.width ≤ maxSide ∧ s.height ≤ maxSide then .ok s else .error (.tooLarge s.width s.height)

/-- Both sides multiplied by a factor. The products are machine words: one that does not fit is a
    fault of its own, found before the sides are compared with `maxSide`. -/
def scale (s : Size) (factor : Nat) : Except ArgumentFault Size :=
  if s.width * factor < Text.wordLimit ∧ s.height * factor < Text.wordLimit then
    check ⟨s.width * factor, s.height * factor⟩
  else .error (.scaleOverflow s.width s.height factor)

/-- Whether a character separates the two sides in the text of a size. -/
def isSeparator (c : Char) : Bool := c == 'x' || c == 'X'

/-- Read `WxH`: two positive numbers around the first separator, neither above `maxSide`. -/
def ofText (s : String) : Except ArgumentFault Size :=
  match Text.splitOnce isSeparator s.toList with
  | none => .error (.invalidSize s)
  | some (w, h) =>
    match Text.readWord w, Text.readWord h with
    | some w, some h => if w = 0 ∨ h = 0 then .error (.invalidSize s) else check ⟨w, h⟩
    | _, _ => .error (.invalidSize s)

/-- A size passes the check exactly when both sides are within the limit, and is then unchanged. -/
theorem check_eq_ok {s t : Size} :
    s.check = .ok t ↔ t = s ∧ s.width ≤ maxSide ∧ s.height ≤ maxSide := by
  unfold check
  split
  · rename_i h
    simp [h, eq_comm]
  · rename_i h
    simp [h]

/-- A size can be multiplied by a factor exactly when the products are within the limit. They are
    machine words then. -/
theorem exists_scale_iff {s : Size} {factor : Nat} :
    (∃ t, s.scale factor = .ok t) ↔ s.width * factor ≤ maxSide ∧ s.height * factor ≤ maxSide := by
  have hword := maxSide_lt_wordLimit
  unfold scale
  constructor
  · rintro ⟨t, ht⟩
    split at ht
    · exact (check_eq_ok.1 ht).2
    · cases ht
  · intro h
    rw [if_pos ⟨by omega, by omega⟩]
    exact ⟨_, check_eq_ok.2 ⟨rfl, h⟩⟩

end Size

/-- The size of an image. -/
def Image.size (image : Image) : Size := ⟨image.width, image.height⟩

/-- The fault of combining two images whose sizes differ, if they do. -/
def Image.requireSameSize (a b : Image) : Except ArgumentFault Unit :=
  if a.SameSize b then .ok () else .error (.sizeMismatch a.width a.height b.width b.height)

end Tapestry

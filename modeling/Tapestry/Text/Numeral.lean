/-!
# Numerals

Natural numbers written with ASCII digits. `readNat` reads any digits; `readWord` is the form that
counts, factors and sizes take: an optional plus sign, digits, and a value below 2 ^ 32.
Writing is `toString`, which `readWord_toString` ties to reading.
-/

namespace Tapestry.Text

/-- The first number that no 32-bit word holds. -/
def wordLimit : Nat := 4294967296

/-- The value of a text of one or more ASCII digits. -/
def readNat (cs : List Char) : Option Nat :=
  if cs ≠ [] ∧ cs.all Char.isDigit then some (Nat.ofDigitChars 10 cs 0) else none

/-- The text without one leading plus sign. -/
def dropPlus : List Char → List Char
  | '+' :: cs => cs
  | cs => cs

/-- The value of an optional plus sign and one or more ASCII digits, when it is below 2 ^ 32. -/
def readWord (cs : List Char) : Option Nat :=
  (readNat (dropPlus cs)).filter (· < wordLimit)

/-- Reading undoes writing. -/
theorem readNat_toDigits (n : Nat) : readNat (Nat.toDigits 10 n) = some n := by
  have h : (Nat.toDigits 10 n).all Char.isDigit = true := by
    rw [List.all_eq_true]
    exact fun c hc => Nat.isDigit_of_mem_toDigits (by decide) (by decide) hc
  simp [readNat, h, Nat.toDigits_ne_nil, Nat.ofDigitChars_toDigits]

/-- A number is written without a sign. -/
theorem dropPlus_toDigits (n : Nat) : dropPlus (Nat.toDigits 10 n) = Nat.toDigits 10 n := by
  have h : ∀ c ∈ Nat.toDigits 10 n, c.isDigit = true :=
    fun c hc => Nat.isDigit_of_mem_toDigits (by decide) (by decide) hc
  generalize Nat.toDigits 10 n = cs at h
  unfold dropPlus
  split
  · exact absurd (h '+' (by simp)) (by decide)
  · rfl

/-- A number below 2 ^ 32 reads back from its numeral, a larger one does not. -/
theorem readWord_toDigits (n : Nat) :
    readWord (Nat.toDigits 10 n) = if n < wordLimit then some n else none := by
  simp [readWord, dropPlus_toDigits, readNat_toDigits, Option.filter]

/-- A number is written in the base ten. -/
theorem toList_toString (n : Nat) : (toString n).toList = Nat.toDigits 10 n :=
  String.toList_ofList

/-- It is written with digits alone. -/
theorem isDigit_of_mem_toString {n : Nat} {c : Char} (h : c ∈ (toString n).toList) :
    c.isDigit = true := by
  rw [toList_toString] at h
  exact Nat.isDigit_of_mem_toDigits (by decide) (by decide) h

/-- A number below 2 ^ 32 is read back from its text, a larger one is not. -/
theorem readWord_toString (n : Nat) :
    readWord (toString n).toList = if n < wordLimit then some n else none := by
  rw [toList_toString, readWord_toDigits]

end Tapestry.Text

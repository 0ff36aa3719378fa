import Mathlib.Data.List.Forall2
import Tapestry.Arguments

/-!
# Texts that differ in handles only

The number in a handle depends on how many handles were made before. Two texts are alike in two
tables when one has a handle where the other one has another handle for the same image, and both are
the same text otherwise (`Alike`). What reads an argument cannot tell them apart: a reader of images
gives the same image, and every other reader refuses both, because it takes no text with an at sign.

## Key results

- `HandleTable.extends_register`: what the handles made so far are bound to stays
- `Alike.keywordOf?`: alike texts are alike as keywords
- `Alike.eq_or_at_mem`: alike texts are the same text, or there is an at sign in both
- `Arguments.ofList_positional`, `Arguments.ofList_keyed`: what texts are taken for
-/

namespace Tapestry

/-! ## Plain texts -/

/-- Whether a text holds no start of a handle anywhere. -/
def Plain (s : String) : Prop := ¬ handlePrefix <:+: s.toList

/-- A part of a plain text is plain. -/
private theorem Plain.of_infix {s t : String} (h : Plain s) (hpart : t.toList <:+: s.toList) :
    Plain t :=
  fun h' => h (h'.trans hpart)

/-- A handle is the prefix of handles in front of digits. -/
theorem isHandle_iff {s : String} :
    isHandle s = true ↔
      ∃ digits, s.toList = handlePrefix ++ digits ∧ digits ≠ [] ∧ digits.all Char.isDigit := by
  rw [isHandle]
  constructor
  · intro h
    split at h
    · exact nomatch h
    -- What is behind the prefix has to be digits, and at least one of them.
    · next digits hdrop =>
      obtain ⟨hne, hdigits⟩ := Bool.and_eq_true_iff.1 h
      exact ⟨digits, Text.dropStart?_eq_some.1 hdrop, of_decide_eq_true hne, hdigits⟩
  · rintro ⟨digits, hs, hne, hdigits⟩
    rw [Text.dropStart?_eq_some.2 hs]
    simp only [hdigits, Bool.and_true]
    exact decide_eq_true hne

/-- The name of every handle is a handle. -/
theorem isHandle_handleName (n : Nat) : isHandle (handleName n) = true := by
  refine isHandle_iff.2 ⟨Nat.toDigits 10 n, by rw [handleName, String.toList_ofList],
    Nat.toDigits_ne_nil, List.all_eq_true.2 fun c hc => ?_⟩
  exact Nat.isDigit_of_mem_toDigits (by decide) (by decide) hc

/-- A text that names no handle is none. -/
theorem Plain.isHandle_eq_false {s : String} (h : Plain s) : isHandle s = false := by
  refine Bool.eq_false_iff.2 fun hs => ?_
  obtain ⟨digits, hs, -⟩ := isHandle_iff.1 hs
  exact h (hs ▸ (List.prefix_append _ _).isInfix)

/-- There is no equals sign in a handle. -/
theorem equals_not_mem_of_isHandle {s : String} (h : isHandle s = true) : '=' ∉ s.toList := by
  obtain ⟨digits, hs, -, hdigits⟩ := isHandle_iff.1 h
  rw [hs, List.mem_append, not_or]
  refine ⟨by decide, fun hmem => ?_⟩
  exact absurd (List.all_eq_true.1 hdigits _ hmem) (by decide)

/-- A text is not cut when it has no character to cut it at. -/
theorem splitOnce_eq_none {p : Char → Bool} {cs : List Char} (h : ∀ c ∈ cs, p c = false) :
    Text.splitOnce p cs = none := by
  match hs : Text.splitOnce p cs with
  | none => rfl
  | some (a, b) =>
    obtain ⟨c, hc, rfl, -⟩ := Text.splitOnce_eq_some hs
    exact absurd hc (Bool.eq_false_iff.1 (h c (by simp)))

/-- Without an equals sign a text is not cut into a keyword and its value. -/
theorem splitOnce_of_not_mem {s : String} (h : '=' ∉ s.toList) :
    Text.splitOnce (· == '=') s.toList = none := by
  refine splitOnce_eq_none fun c hc => beq_false_of_ne ?_
  rintro rfl
  exact h hc

/-- The name of a handle has no equals sign, so it is a positional argument. -/
theorem splitOnce_handleName (n : Nat) :
    Text.splitOnce (· == '=') (handleName n).toList = none :=
  splitOnce_of_not_mem (equals_not_mem_of_isHandle (isHandle_handleName n))

/-- There is an at sign in a handle. -/
private theorem at_mem_handleName (n : Nat) : '@' ∈ (handleName n).toList := by
  rw [handleName, String.toList_ofList]
  exact List.mem_append_left _ (by decide)

/-! ## Tables -/

namespace HandleTable

/-- Whether a table has the handles of another one, bound to the same images. -/
structure Extends (t u : HandleTable) : Prop where
  counter_le : t.counter ≤ u.counter
  lookup_eq : ∀ n < t.counter, u.lookup (handleName n) = t.lookup (handleName n)

/-- A table extends itself. -/
theorem Extends.refl (t : HandleTable) : t.Extends t := ⟨Nat.le_refl _, fun _ _ => rfl⟩

/-- What a table has kept, one that extends it keeps as well. -/
theorem Extends.trans {t u v : HandleTable} (h : t.Extends u) (h' : u.Extends v) :
    t.Extends v where
  counter_le := Nat.le_trans h.counter_le h'.counter_le
  lookup_eq n hn := by
    rw [h'.lookup_eq n (Nat.lt_of_lt_of_le hn h.counter_le), h.lookup_eq n hn]

/-- What the handles made so far are bound to stays when an image is registered. -/
theorem extends_register (t : HandleTable) (image : Image) : t.Extends (t.register image).2 where
  counter_le := Nat.le_succ _
  lookup_eq n hn := by
    rw [lookup_register, if_neg]
    exact fun h => absurd (handleName_injective h) (Nat.ne_of_lt hn)

/-- A handle has the image that it is bound to. -/
theorem resolve_handleName {t : HandleTable} {n : Nat} {image : Image}
    (h : t.lookup (handleName n) = some image) : t.resolve (handleName n) = .ok image := by
  have hof : handleOf (handleName n) = handleName n := by
    rw [handleOf, splitOnce_handleName]
  rw [resolve, hof, h]

end HandleTable

/-! ## Alike texts -/

/-- Whether two texts are the same but for handles, where those of the first text have the same
    images in the first table as those of the second text have in the second one. A handle stands
    alone or behind an equals sign. -/
inductive Alike (t t' : HandleTable) : String → String → Prop
  | plain {s} (h : Plain s) : Alike t t' s s
  | handle {m n} (image) (hm : m < t.counter) (hn : n < t'.counter)
      (h : t.lookup (handleName m) = some image) (h' : t'.lookup (handleName n) = some image) :
      Alike t t' (handleName m) (handleName n)
  | keyed {key s s'} (hkey : Plain key) (h : Alike t t' s s') :
      Alike t t' (key ++ "=" ++ s) (key ++ "=" ++ s')

section Alike

variable {t t' u u' : HandleTable} {s s' : String}

/-- Alike texts stay alike in later tables. -/
theorem Alike.mono (h : Alike t t' s s') (hu : t.Extends u) (hu' : t'.Extends u') :
    Alike u u' s s' := by
  induction h with
  | plain h => exact .plain h
  | handle image hm hn h h' =>
    have hm' := Nat.lt_of_lt_of_le hm hu.counter_le
    have hn' := Nat.lt_of_lt_of_le hn hu'.counter_le
    refine .handle image hm' hn' ?_ ?_
    · rw [hu.lookup_eq _ hm, h]
    · rw [hu'.lookup_eq _ hn, h']
  | keyed hkey _ ih => exact .keyed hkey ih

/-- The handles that two tables make for an image are alike. -/
theorem alike_register (image : Image) :
    Alike (t.register image).2 (t'.register image).2 (t.register image).1
      (t'.register image).1 := by
  refine .handle image (Nat.lt_succ_self _) (Nat.lt_succ_self _) ?_ ?_
  · rw [HandleTable.lookup_register, if_pos rfl]
  · rw [HandleTable.lookup_register, if_pos rfl]

/-- Alike texts are the same text, or there is an at sign in both. -/
theorem Alike.eq_or_at_mem (h : Alike t t' s s') : s = s' ∨ '@' ∈ s.toList ∧ '@' ∈ s'.toList := by
  induction h with
  | plain => exact .inl rfl
  | handle => exact .inr ⟨at_mem_handleName _, at_mem_handleName _⟩
  | keyed _ _ ih =>
    -- The at signs of the values are at signs of the texts.
    simp only [String.toList_append, List.mem_append]
    rcases ih with rfl | ⟨hs, hs'⟩
    · exact .inl rfl
    · exact .inr ⟨.inr hs, .inr hs'⟩

/-- A text without an at sign is alike to itself only. -/
theorem Alike.eq_iff (h : Alike t t' s s') {word : String} (hword : '@' ∉ word.toList) :
    s = word ↔ s' = word := by
  rcases h.eq_or_at_mem with rfl | ⟨hs, hs'⟩
  · rfl
  · exact ⟨fun h => absurd (h ▸ hs) hword, fun h => absurd (h ▸ hs') hword⟩

/-- What stands in front of a cut goes to it, and what stands behind it to the rest. -/
theorem splitOnce_append {p : Char → Bool} {c : Char} (hc : p c = true) (cs ds : List Char) :
    Text.splitOnce p (cs ++ c :: ds) =
      match Text.splitOnce p cs with
      | some (a, b) => some (a, b ++ c :: ds)
      | none => some (cs, ds) := by
  -- The induction is on the text in front: a character splits it, or is passed over in both texts.
  induction cs with
  | nil => simp only [List.nil_append, Text.splitOnce, hc, ↓reduceIte]
  | cons d cs ih =>
    rw [List.cons_append, Text.splitOnce, Text.splitOnce, ih]
    by_cases hd : p d = true
    · rw [if_pos hd, if_pos hd]
    · rw [if_neg hd, if_neg hd]
      cases Text.splitOnce p cs <;> rfl

/-- Whether two keywords with values are alike: the keys are the same and the values are alike. -/
def KeywordsAlike (t t' : HandleTable) (x x' : String × String) : Prop :=
  x.1 = x'.1 ∧ Alike t t' x.2 x'.2

/-- A text behind a key is its value, unless there is an equals sign in the key itself. -/
theorem keywordOf?_keyed (key s : String) :
    keywordOf? (key ++ "=" ++ s) =
      match Text.splitOnce (· == '=') key.toList with
      | some (a, b) => if a = [] then none else some (String.ofList a, String.ofList b ++ "=" ++ s)
      | none => if key.toList = [] then none else some (key, s) := by
  have htext : (key ++ "=" ++ s).toList = key.toList ++ '=' :: s.toList := by simp
  have hvalue : ∀ b, String.ofList (b ++ '=' :: s.toList) = String.ofList b ++ "=" ++ s := by
    intro b
    apply String.toList_injective
    simp
  rw [keywordOf?, htext, splitOnce_append (p := (· == '=')) rfl]
  cases Text.splitOnce (· == '=') key.toList with
  | none => simp only [String.ofList_toList]
  | some x => simp only [hvalue]

/-- Alike texts are alike as keywords, or both are none. -/
theorem Alike.keywordOf? (h : Alike t t' s s') :
    Option.Rel (KeywordsAlike t t') (Tapestry.keywordOf? s) (Tapestry.keywordOf? s') := by
  cases h with
  -- A plain text has a plain value, since that is one of its parts.
  | plain h =>
    rw [Tapestry.keywordOf?]
    split
    · next key value hs =>
      split
      · exact .none
      · -- The value is a part of the text, and so as plain as that.
        obtain ⟨c, -, heq, -⟩ := Text.splitOnce_eq_some hs
        have hpart : value <:+: s.toList := heq ▸ ⟨key ++ [c], [], by simp⟩
        exact .some ⟨rfl, .plain (h.of_infix (by rwa [String.toList_ofList]))⟩
    · exact .none
  -- The name of a handle has no equals sign, so it is no keyword.
  | @handle m n =>
    rw [Tapestry.keywordOf?, Tapestry.keywordOf?, splitOnce_handleName, splitOnce_handleName]
    exact .none
  -- A keyword is split at the first equals sign, be it in its key or behind that.
  | @keyed key s s' hkey h =>
    rw [keywordOf?_keyed, keywordOf?_keyed]
    split
    · next a b hs =>
      split
      · exact .none
      · -- The first equals sign is in the key, so the rest of the key goes to the values.
        obtain ⟨c, -, heq, -⟩ := Text.splitOnce_eq_some hs
        have hpart : b <:+: key.toList := heq ▸ ⟨a ++ [c], [], by simp⟩
        have hb : Plain (String.ofList b) := hkey.of_infix (by rwa [String.toList_ofList])
        exact .some ⟨rfl, .keyed hb h⟩
    · split
      · exact .none
      · exact .some ⟨rfl, h⟩

end Alike

/-! ## Lists of texts -/

namespace Arguments

/-- Arguments behind others are put behind them, the positional ones and the keywords apart. -/
theorem ofList_append (texts texts' : List String) :
    ofList (texts ++ texts') =
      ⟨(ofList texts).positional ++ (ofList texts').positional,
        (ofList texts).keywords ++ (ofList texts').keywords⟩ := by
  simp [ofList]

/-- Texts without an equals sign are positional arguments. -/
theorem ofList_positional {texts : List String} (h : ∀ s ∈ texts, '=' ∉ s.toList) :
    ofList texts = ⟨texts, []⟩ := by
  have hnone : ∀ s ∈ texts, keywordOf? s = none := by
    intro s hs
    rw [keywordOf?, splitOnce_of_not_mem (h s hs)]
  have hpositional : texts.filter (fun s => (keywordOf? s).isNone) = texts :=
    List.filter_eq_self.2 fun s hs => by rw [hnone s hs, Option.isNone_none]
  rw [ofList, hpositional, List.filterMap_eq_nil_iff.2 hnone]

/-- A key and a value with an equals sign between them are a keyword. -/
theorem ofList_keyed (key value : String) (hne : key.toList ≠ []) (hkey : '=' ∉ key.toList) :
    ofList [key ++ "=" ++ value] = ⟨[], [(key, value)]⟩ := by
  have hkeyword : keywordOf? (key ++ "=" ++ value) = some (key, value) := by
    rw [keywordOf?_keyed, splitOnce_of_not_mem hkey]
    exact if_neg hne
  simp [ofList, hkeyword]

end Arguments

end Tapestry

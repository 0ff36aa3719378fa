import Tapestry.Command
import Tapestry.Proofs.HexDigits
import Tapestry.Proofs.Trimming

/-!
# What no reader takes

Every handle has an at sign in it. Nothing else that a command can be given has one: no number, no
size, no colour and no name of a mode or an angle. So a reader of any of these refuses a handle, and
it does so by a fault of the argument (`RefusesAt`).

## Key results

- `Text.at_not_mem_of_readWord`, `Scientific.read?_eq_none`: there is no at sign in a number
- `Colour.Foreign.not_mem_of_ofText`: there is no at sign in a colour, and no equals sign
- `Size.at_not_mem_of_ofText`: there is no at sign in a size
-/

namespace Tapestry

/-- Whether a reader takes no text with an at sign, and refuses a text by a fault. -/
def RefusesAt {α : Type} (read : String → Except EvalError α) : Prop :=
  ∀ s, (∃ a, read s = .ok a ∧ '@' ∉ s.toList) ∨ ∃ f, read s = .error (.fault f)

/-- A reader of faults takes no at sign when no text that it takes has one. -/
private theorem refusesAt_mapError {α : Type} {read : String → Except ArgumentFault α}
    (h : ∀ s a, read s = .ok a → '@' ∉ s.toList) :
    RefusesAt fun s => (read s).mapError .fault := by
  intro s
  simp only
  cases hs : read s with
  | ok a => exact .inl ⟨a, rfl, h s a hs⟩
  | error f => exact .inr ⟨f, rfl⟩

/-! ## Numbers -/

namespace Text

/-- There is no at sign in a numeral. -/
theorem at_not_mem_of_readWord {cs : List Char} {n : Nat} (h : readWord cs = some n) :
    '@' ∉ cs := by
  have hdrop : '@' ∈ cs → '@' ∈ dropPlus cs := by
    unfold dropPlus
    split
    · exact fun h => (List.mem_cons.1 h).resolve_left (by decide)
    · exact id
  intro hmem
  obtain ⟨hread, -⟩ := Option.filter_eq_some_iff.1 h
  rw [readNat] at hread
  split at hread
  · next hdigits => exact absurd (List.all_eq_true.1 hdigits.2 _ (hdrop hmem)) (by decide)
  · cases hread

end Text

namespace Scientific

/-- A sign is no at sign. -/
private theorem at_mem_splitSign {cs : List Char} (h : '@' ∈ cs) : '@' ∈ (splitSign cs).2 := by
  unfold splitSign
  split
  · exact (List.mem_cons.1 h).resolve_left (by decide)
  · exact (List.mem_cons.1 h).resolve_left (by decide)
  · exact h

/-- No digit is an at sign. -/
private theorem at_mem_splitDigits {cs : List Char} (h : '@' ∈ cs) : '@' ∈ (splitDigits cs).2 :=
  mem_dropWhile h (by decide)

/-- There is no at sign in an exponent. -/
private theorem readExponent_eq_none {cs : List Char} (h : '@' ∈ cs) : readExponent cs = none := by
  match cs with
  | c :: cs =>
    rw [readExponent]
    split
    · next hc =>
      -- The letter is no at sign, so that this is among the digits, where it cannot be.
      have hcs : '@' ∈ cs := by
        refine (List.mem_cons.1 h).resolve_left fun heq => ?_
        subst heq
        exact absurd hc (by decide)
      have hdigits := at_mem_splitSign hcs
      simp only
      rw [if_neg]
      exact fun hall => absurd (List.all_eq_true.1 hall.2 _ hdigits) (by decide)
    · rfl

/-- There is no at sign in a decimal numeral. -/
theorem read?_eq_none {cs : List Char} (h : '@' ∈ cs) : read? cs = none := by
  have hrest := at_mem_splitDigits (at_mem_splitSign h)
  unfold read?
  simp only
  split
  · next ds hpoint =>
    -- The point is no at sign either, so that this is behind the digits of the fraction.
    rw [hpoint] at hrest
    have hfraction := at_mem_splitDigits ((List.mem_cons.1 hrest).resolve_left (by decide))
    rw [readExponent_eq_none hfraction, Option.map_none, ite_self]
  · rw [readExponent_eq_none hrest, Option.map_none, ite_self]

end Scientific

/-! ## Colours, sizes and modes -/

namespace Colour

/-- Whether a character stands in no text of a colour: it is no white space, no number sign and no
    hexadecimal digit, and there is no name with it in any case. -/
structure Foreign (c : Char) : Prop where
  isSpace_eq : Text.isSpace c = false
  ne_hash : c ≠ '#'
  hexDigit?_eq : hexDigit? c = none
  not_mem_named : ∀ x ∈ named, c.toLower ∉ x.1.toList

/-- There is no at sign in a colour. -/
private theorem foreign_at : Foreign '@' where
  isSpace_eq := by decide
  ne_hash := by decide
  hexDigit?_eq := by decide
  not_mem_named := by decide +kernel

/-- There is no equals sign in a colour, so that no colour is taken for a keyword. -/
theorem foreign_equals : Foreign '=' where
  isSpace_eq := by decide
  ne_hash := by decide
  hexDigit?_eq := by decide
  not_mem_named := by decide +kernel

namespace Foreign

variable {x : Char}

/-- A foreign character is not among hexadecimal digits. -/
private theorem not_mem_of_hexDigits (hx : Foreign x) {cs : List Char} {digits : List UInt8}
    (h : hexDigits cs = .ok digits) : x ∉ cs := by
  intro hmem
  obtain ⟨d, hd⟩ := exists_hexDigit?_of_mem h hmem
  exact nomatch hd.symm.trans hx.hexDigit?_eq

/-- A foreign character is not in a hexadecimal colour. -/
private theorem not_mem_of_ofHex (hx : Foreign x) {s : String} {c : Colour} (h : ofHex s = .ok c) :
    x ∉ s.toList := by
  intro hmem
  have hdrop : x ∈ dropHash (Text.trimmed s).toList := by
    -- Neither trimming nor dropping the hash removes a foreign character.
    have htrimmed := Text.mem_trimmed hmem hx.isSpace_eq
    unfold dropHash
    split
    · next heq =>
      rw [heq] at htrimmed
      exact (List.mem_cons.1 htrimmed).resolve_left hx.ne_hash
    · exact htrimmed
  rw [ofHex] at h
  split at h
  · exact nomatch h
  · next digits hdigits => exact hx.not_mem_of_hexDigits hdigits hdrop

/-- A foreign character is not in the name of a colour. -/
private theorem not_mem_of_ofName? (hx : Foreign x) {s : String} {c : Colour}
    (h : ofName? s = some c) : x ∉ s.toList := by
  intro hmem
  have hlower : x.toLower ∈ (String.ofList (Text.lowerAscii s.toList)).toList := by
    rw [String.toList_ofList]
    exact List.mem_map_of_mem hmem
  rw [ofName?] at h
  obtain ⟨before, after, heq, -⟩ := List.lookup_eq_some_iff.1 h
  have hnamed : (_, c) ∈ named := heq ▸ List.mem_append_right _ List.mem_cons_self
  exact hx.not_mem_named _ hnamed hlower

/-- A foreign character is not in the text of a colour. -/
theorem not_mem_of_ofText (hx : Foreign x) {s : String} {c : Colour} (h : ofText s = .ok c) :
    x ∉ s.toList := by
  intro hmem
  have htrimmed := Text.mem_trimmed hmem hx.isSpace_eq
  rw [ofText] at h
  split at h
  · next hname => exact hx.not_mem_of_ofName? hname htrimmed
  · split at h
    · exact hx.not_mem_of_ofHex h htrimmed
    · exact nomatch h

end Foreign

end Colour

/-- There is no at sign in the text of a size. -/
theorem Size.at_not_mem_of_ofText {s : String} {size : Size} (h : ofText s = .ok size) :
    '@' ∉ s.toList := by
  rw [ofText] at h
  split at h
  · exact nomatch h
  · next w v hs =>
    split at h
    · next hw hv =>
      -- The sign between the sides is an x, and the sides are digits.
      obtain ⟨c, hc, heq, -⟩ := Text.splitOnce_eq_some hs
      rw [heq, List.mem_append, List.mem_cons]
      rintro (hmem | rfl | hmem)
      · exact Text.at_not_mem_of_readWord hw hmem
      · exact absurd hc (by decide)
      · exact Text.at_not_mem_of_readWord hv hmem
    · exact nomatch h

/-- There is no at sign in the name of a mode. -/
theorem JoinMode.at_not_mem_of_ofText {s : String} {mode : JoinMode} (h : ofText s = .ok mode) :
    '@' ∉ s.toList := by
  unfold ofText at h
  split at h
  · decide
  · decide
  · decide
  · exact nomatch h

/-! ## Readers that refuse -/

/-- No handle is a colour. -/
theorem refusesAt_colour : RefusesAt fun s => (Colour.ofText s).mapError .fault :=
  refusesAt_mapError fun _ _ => Colour.foreign_at.not_mem_of_ofText

/-- No handle is a size. -/
theorem refusesAt_size : RefusesAt fun s => (Size.ofText s).mapError .fault :=
  refusesAt_mapError fun _ _ => Size.at_not_mem_of_ofText

/-- No handle is a mode of `join`. -/
theorem refusesAt_joinMode : RefusesAt fun s => (JoinMode.ofText s).mapError .fault :=
  refusesAt_mapError fun _ _ => JoinMode.at_not_mem_of_ofText

/-- No handle is a number. -/
theorem refusesAt_wordOfText (what : String) : RefusesAt fun s => wordOfText s what := by
  intro s
  simp only [wordOfText]
  split
  · next n hn => exact .inl ⟨n, rfl, Text.at_not_mem_of_readWord hn⟩
  · exact .inr ⟨_, rfl⟩

/-- No handle is a number with a fraction. -/
theorem refusesAt_floatOfText (what : String) : RefusesAt fun s => floatOfText s what := by
  intro s
  simp only [floatOfText]
  split
  · next x hx =>
    refine .inl ⟨x, rfl, fun hmem => ?_⟩
    rw [Binary32.read?, Scientific.read?_eq_none hmem] at hx
    exact nomatch hx
  · exact .inr ⟨_, rfl⟩

end Tapestry

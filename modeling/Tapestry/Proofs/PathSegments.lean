import Mathlib.Logic.Relation
import Tapestry.Workspace

/-!
# Segments of path names

Following a path name only depends on its *names*, the texts between its slashes without the empty
ones. A path name and a relative one behind it have the names of the first and then those of the
second, and a path name above another one has the first few of its names. So a path name that was
put together and taken apart again leads through the directories that its first part leads through,
and then on from there.

Where it leads from there depends on its dots. Names *stay below* their start when no `..` among
them goes up further than the names before it went down.

## Key results

- `intercalate_splitSlashes`, `splitSlashes_intercalate`: a text and the texts between its slashes
- `names_join`: the names of a relative path name behind another one
- `Above.names_prefix`: the names of a path name above another one
- `mem_ancestry`: the directories that are made for a path name are itself and those above it
- `prefix_of_follow`: names that stay below their start lead to a location below it
-/

namespace Tapestry

namespace PathName

/-! ## Texts between slashes -/

/-- There is at least one segment, be it empty. -/
theorem splitSlashes_ne_nil (cs : List Char) : splitSlashes cs ≠ [] := by
  cases cs with
  | nil => simp [splitSlashes]
  | cons c cs =>
    unfold splitSlashes
    split
    · simp
    · split <;> simp

/-- A character that is no slash goes in front of the first text. -/
theorem splitSlashes_cons {c : Char} (hc : c ≠ '/') {cs s : List Char} {ss : List (List Char)}
    (h : splitSlashes cs = s :: ss) : splitSlashes (c :: cs) = (c :: s) :: ss := by
  rw [splitSlashes, if_neg hc, h]

/-- A slash in front makes an empty first segment. -/
theorem splitSlashes_slash (cs : List Char) : splitSlashes ('/' :: cs) = [] :: splitSlashes cs := by
  rw [splitSlashes, if_pos rfl]

/-- A slash separates what is on its two sides. -/
theorem splitSlashes_append (a b : List Char) :
    splitSlashes (a ++ '/' :: b) = splitSlashes a ++ splitSlashes b := by
  induction a with
  | nil => exact splitSlashes_slash b
  | cons c cs ih =>
    by_cases hc : c = '/'
    · rw [hc, List.cons_append, splitSlashes_slash, splitSlashes_slash, ih, List.cons_append]
    · obtain ⟨s, ss, hs⟩ := List.exists_cons_of_ne_nil (splitSlashes_ne_nil cs)
      rw [hs, List.cons_append] at ih
      rw [List.cons_append, splitSlashes_cons hc ih, splitSlashes_cons hc hs, List.cons_append]

/-- The texts between slashes make up the text. -/
theorem intercalate_splitSlashes (cs : List Char) :
    List.intercalate ['/'] (splitSlashes cs) = cs := by
  induction cs with
  | nil => rfl
  | cons c cs ih =>
    obtain ⟨s, ss, hs⟩ := List.exists_cons_of_ne_nil (splitSlashes_ne_nil cs)
    rw [hs] at ih
    -- A slash ends a segment, and any other character goes in front of the segment it is read with.
    by_cases hc : c = '/'
    · rw [hc, splitSlashes_slash, hs, List.intercalate_cons_cons, ih]
      rfl
    · rw [splitSlashes_cons hc hs]
      cases ss with
      | nil => rw [List.intercalate_singleton] at ih ⊢; rw [ih]
      | cons t ts =>
        rw [List.intercalate_cons_cons] at ih ⊢
        rw [List.cons_append, List.cons_append, ih]

/-- Two lists of texts are put together with a slash between the two. -/
theorem intercalate_append {ss ts : List (List Char)} (hss : ss ≠ []) (hts : ts ≠ []) :
    List.intercalate ['/'] (ss ++ ts) =
      List.intercalate ['/'] ss ++ '/' :: List.intercalate ['/'] ts := by
  induction ss with
  | nil => exact absurd rfl hss
  | cons s ss ih =>
    by_cases hnil : ss = []
    · rw [hnil, List.singleton_append, List.intercalate_singleton,
        List.intercalate_cons_of_ne_nil hts, List.append_assoc, List.singleton_append]
    · have hrest : ss ++ ts ≠ [] := fun h => hnil (List.append_eq_nil_iff.1 h).1
      rw [List.cons_append, List.intercalate_cons_of_ne_nil hrest, ih hnil,
        List.intercalate_cons_of_ne_nil hnil, List.append_assoc _ _ ('/' :: _)]

/-- Where the texts between slashes are cut in two, there is a slash. -/
theorem eq_of_splitSlashes_eq_append {cs : List Char} {ss ts : List (List Char)}
    (h : splitSlashes cs = ss ++ ts) (hss : ss ≠ []) (hts : ts ≠ []) :
    cs = List.intercalate ['/'] ss ++ '/' :: List.intercalate ['/'] ts := by
  rw [← intercalate_append hss hts, ← h, intercalate_splitSlashes]

/-- Without a slash there is one segment. -/
theorem splitSlashes_of_not_mem {cs : List Char} (h : '/' ∉ cs) : splitSlashes cs = [cs] := by
  induction cs with
  | nil => rfl
  | cons c cs ih =>
    obtain ⟨hc, hcs⟩ := not_or.1 (mt List.mem_cons.2 h)
    exact splitSlashes_cons (Ne.symm hc) (ih hcs)

/-- Texts without slashes are read back when they are put together. -/
theorem splitSlashes_intercalate {ss : List (List Char)} (hne : ss ≠ [])
    (h : ∀ s ∈ ss, '/' ∉ s) : splitSlashes (List.intercalate ['/'] ss) = ss := by
  induction ss with
  | nil => exact absurd rfl hne
  | cons s ss ih =>
    obtain ⟨hs, hss⟩ := List.forall_mem_cons.1 h
    by_cases hnil : ss = []
    · rw [hnil, List.intercalate_singleton, splitSlashes_of_not_mem hs]
    · rw [List.intercalate_cons_of_ne_nil hnil, List.append_assoc, List.singleton_append,
        splitSlashes_append, splitSlashes_of_not_mem hs, ih hnil hss, List.singleton_append]

/-- The text up to the end of one of the texts between slashes has the first few of them. -/
private theorem splitSlashes_take_prefix {cs : List Char} {k : Nat} {placed : List Char × Nat}
    (h : placed ∈ place k (splitSlashes cs)) :
    ∃ n, placed.2 + placed.1.length = k + n ∧ splitSlashes (cs.take n) <+: splitSlashes cs := by
  induction cs generalizing k placed with
  | nil =>
    obtain rfl : placed = ([], k) := by simpa [splitSlashes, place] using h
    exact ⟨0, rfl, List.prefix_refl _⟩
  | cons c cs ih =>
    by_cases hc : c = '/'
    · rw [hc, splitSlashes_slash, place, List.mem_cons] at h
      rw [hc, splitSlashes_slash]
      rcases h with rfl | h
      · exact ⟨0, rfl, by simp [splitSlashes]⟩
      · obtain ⟨n, hn, hfirst⟩ := ih h
        refine ⟨n + 1, by simp at hn; omega, ?_⟩
        rw [List.take_succ_cons, splitSlashes_slash]
        exact (List.prefix_cons_inj _).2 hfirst
    · obtain ⟨s, ss, hs⟩ := List.exists_cons_of_ne_nil (splitSlashes_ne_nil cs)
      rw [splitSlashes_cons hc hs, place, List.mem_cons] at h
      -- The place ends one character further than the same place in what follows the first.
      obtain ⟨shifted, hmem, hstop⟩ : ∃ shifted ∈ place (k + 1) (splitSlashes cs),
          placed.2 + placed.1.length = shifted.2 + shifted.1.length := by
        rw [hs, place]
        rcases h with rfl | h
        · exact ⟨(s, k + 1), List.mem_cons_self, by simp; omega⟩
        · have hoffset : k + (c :: s).length + 1 = k + 1 + s.length + 1 := by simp; omega
          exact ⟨placed, List.mem_cons_of_mem _ (hoffset ▸ h), rfl⟩
      obtain ⟨n, hn, hfirst⟩ := ih hmem
      refine ⟨n + 1, by omega, ?_⟩
      obtain ⟨t, ts, ht⟩ := List.exists_cons_of_ne_nil (splitSlashes_ne_nil (cs.take n))
      rw [ht, hs, List.cons_prefix_cons] at hfirst
      rw [List.take_succ_cons, splitSlashes_cons hc ht, splitSlashes_cons hc hs, hfirst.1]
      exact (List.prefix_cons_inj _).2 hfirst.2

/-! ## Names -/

/-- The texts between slashes that are not empty. -/
def namesOf (cs : List Char) : List String := ((splitSlashes cs).filter (· ≠ [])).map String.ofList

/-- The names of a path name, dots included. -/
def names (p : PathName) : List String := namesOf p.text.toList

/-- The names of texts with a slash between them are those of the one and then those of the other.
    -/
theorem namesOf_append (a b : List Char) : namesOf (a ++ '/' :: b) = namesOf a ++ namesOf b := by
  rw [namesOf, splitSlashes_append, List.filter_append, List.map_append, namesOf, namesOf]

/-- A slash at the end adds no name. -/
private theorem namesOf_append_slash (a : List Char) : namesOf (a ++ ['/']) = namesOf a := by
  have hempty : namesOf [] = [] := rfl
  rw [namesOf_append, hempty, List.append_nil]

/-- The steps of a path name are its names, and a dot when a slash asks for a directory. -/
theorem steps_eq (p : PathName) :
    p.steps = if p.endsWithSlash then p.names ++ ["."] else p.names := by
  simp [steps, endsWithSlash, names, namesOf]

/-- The first part of a text starts where the text starts, unless it is empty. -/
private theorem isAbsolute_eq_of_prefix {p q : PathName} (h : q.text.toList <+: p.text.toList)
    (hq : q.text ≠ "") : q.isAbsolute = p.isAbsolute := by
  obtain ⟨c, cs, hcs⟩ := List.exists_cons_of_ne_nil (fun h => hq (String.toList_inj.1 h))
  obtain ⟨rest, hrest⟩ := h
  rw [isAbsolute, isAbsolute, ← hrest, hcs]
  rfl

/-- A relative path name without names is empty. -/
theorem text_eq_of_names {p : PathName} (h : p.isAbsolute = false) (hnames : p.names = []) :
    p.text = "" := by
  apply String.toList_inj.1
  rw [isAbsolute] at h
  rw [names] at hnames
  cases hcs : p.text.toList with
  | nil => rfl
  | cons c cs =>
    rw [hcs] at h hnames
    have hc : c ≠ '/' := by simpa using h
    obtain ⟨s, ss, hs⟩ := List.exists_cons_of_ne_nil (splitSlashes_ne_nil cs)
    simp [namesOf, splitSlashes_cons hc hs] at hnames

/-! ## Putting together -/

section Join

variable {a b : PathName}

/-- A relative path name behind another one starts where the other one starts. -/
theorem isAbsolute_join (hb : b.isAbsolute = false) : (a.join b).isAbsolute = a.isAbsolute := by
  rw [join, hb]
  simp only [Bool.false_eq_true, ↓reduceIte]
  by_cases ha : a.text = ""
  · have ha' : a.isAbsolute = false := by simp [isAbsolute, ha]
    rw [if_pos (.inl ha), ha, String.empty_append, ha']
    exact hb
  · obtain ⟨c, cs, hcs⟩ := List.exists_cons_of_ne_nil (fun h => ha (String.toList_inj.1 h))
    split <;> simp [isAbsolute, hcs]

/-- Whatever is behind an absolute path name, it stays absolute. -/
theorem isAbsolute_join_of_isAbsolute (ha : a.isAbsolute = true) :
    (a.join b).isAbsolute = true := by
  cases hb : b.isAbsolute with
  | true => rwa [join, if_pos hb]
  | false => rwa [isAbsolute_join hb]

/-- The names of a relative path name behind another one follow those of the other one. -/
theorem names_join (hb : b.isAbsolute = false) : (a.join b).names = a.names ++ b.names := by
  rw [join, hb]
  simp only [Bool.false_eq_true, ↓reduceIte]
  split
  · next ha =>
    rcases ha with ha | ha
    · rw [names, names, names, ha]
      rfl
    · -- The slash between the two is the last one of the first.
      obtain ⟨cs, hcs⟩ := List.getLast?_eq_some_iff.1 ha
      rw [names, names, names, String.toList_append, hcs, List.append_assoc, namesOf_append_slash]
      exact namesOf_append _ _
  · rw [names, names, names, String.toList_append, String.toList_append, List.append_assoc]
    exact namesOf_append _ _

/-- Without a name at the end, what is put together ends with a slash, or it is empty. -/
theorem join_of_text_eq (hb : b.text = "") : (a.join b).text = "" ∨ (a.join b).endsWithSlash := by
  have hrelative : b.isAbsolute = false := by rw [isAbsolute, hb]; rfl
  rw [join, hrelative, hb]
  simp only [Bool.false_eq_true, ↓reduceIte]
  split
  · next ha =>
    rcases ha with ha | ha
    · exact .inl (by simp [ha])
    · exact .inr (by simp [endsWithSlash, ha])
  · exact .inr (by simp [endsWithSlash])

end Join

/-! ## Above -/

/-- The text up to the end of a component has the first few of the names. -/
private theorem namesOf_take_prefix {cs : List Char} {c : Placed} (h : c ∈ placedComponents cs) :
    namesOf (cs.take c.stop) <+: namesOf cs := by
  -- Every component but the root stands where a segment of the text does.
  have hplaced : (c = ⟨.root, 0, 1⟩ ∧ cs.head? = some '/') ∨
      ∃ placed ∈ place 0 (splitSlashes cs), c.stop = placed.2 + placed.1.length := by
    unfold placedComponents at h
    simp only at h
    generalize hbody : List.filterMap _ _ = body at h
    have hread : c ∈ body → ∃ placed ∈ place 0 (splitSlashes cs),
        c.stop = placed.2 + placed.1.length := by
      rw [← hbody]
      intro hmem
      obtain ⟨placed, hplaced, hc⟩ := List.mem_filterMap.1 hmem
      obtain ⟨component, -, rfl⟩ := Option.map_eq_some_iff.1 hc
      exact ⟨placed, hplaced, rfl⟩
    split at h
    · next hhead =>
      rcases List.mem_cons.1 h with hroot | hmem
      · exact .inl ⟨hroot, hhead⟩
      · exact .inr (hread hmem)
    · exact .inr (hread h)
  rcases hplaced with ⟨rfl, hhead⟩ | ⟨placed, hmem, hstop⟩
  · -- The root has no name.
    obtain ⟨cs', rfl⟩ := List.head?_eq_some_iff.1 hhead
    exact List.nil_prefix
  · obtain ⟨n, hn, hfirst⟩ := splitSlashes_take_prefix hmem
    rw [hstop, hn, Nat.zero_add]
    exact (hfirst.filter _).map _

/-- The text of a parent is the first part of a text, and has the first few of the names. -/
private theorem prefix_of_parent? {p q : PathName} (h : p.parent? = some q) :
    q.text.toList <+: p.text.toList ∧ q.names <+: p.names := by
  unfold parent? at h
  simp only at h
  split at h
  · cases h
  · cases h
  · -- The parent ends where the component before the last one does.
    next last before rest _ hplaced =>
    cases h
    rw [names, names, String.toList_ofList]
    refine ⟨List.take_prefix _ _, namesOf_take_prefix ?_⟩
    rw [← List.mem_reverse, hplaced]
    simp
  · cases h
    exact ⟨List.nil_prefix, List.nil_prefix⟩

/-- A path name is above another one when it is its parent, or above its parent. -/
def Above (a p : PathName) : Prop := Relation.TransGen (fun p q => p.parent? = some q) p a

section Above

variable {a p : PathName}

/-- What is above a path name has the beginning of its text and of its names. -/
theorem Above.prefix_and (h : a.Above p) :
    a.text.toList <+: p.text.toList ∧ a.names <+: p.names := by
  induction h with
  | single h => exact prefix_of_parent? h
  | tail _ h ih => exact ⟨(prefix_of_parent? h).1.trans ih.1, (prefix_of_parent? h).2.trans ih.2⟩

/-- A path name above another one has the first few of its names. -/
theorem Above.names_prefix (h : a.Above p) : a.names <+: p.names := h.prefix_and.2

/-- Unless it is empty, a path name above another one starts where the other one starts. -/
theorem Above.isAbsolute_eq (h : a.Above p) (ha : a.text ≠ "") : a.isAbsolute = p.isAbsolute :=
  isAbsolute_eq_of_prefix h.prefix_and.1 ha

/-- The directories that are made for a path name are its own and those above it. -/
theorem mem_ancestry (hp : p.text ≠ "") (h : a ∈ Workspace.ancestry p) :
    a.text ≠ "" ∧ (a = p ∨ a.Above p) := by
  unfold Workspace.ancestry at h
  -- That the length of the text is enough for all parents does not matter here.
  generalize p.text.length = n at h
  induction n generalizing p with
  | zero => exact nomatch h
  | succ n ih =>
    unfold Workspace.ancestry.go at h
    split at h
    · obtain rfl := List.mem_singleton.1 h
      exact ⟨hp, .inl rfl⟩
    · next q hq =>
      split at h
      · obtain rfl := List.mem_singleton.1 h
        exact ⟨hp, .inl rfl⟩
      · next hne =>
        rcases List.mem_cons.1 h with rfl | h
        · exact ⟨hp, .inl rfl⟩
        · obtain ⟨ha, rfl | habove⟩ := ih hne h
          · exact ⟨ha, .inr (.single hq)⟩
          · exact ⟨ha, .inr (.head hq habove)⟩

end Above

/-! ## Dots -/

/-- Whether names, followed one after the other, never lead above the directory they start from,
    where this many directories lie between. -/
def staysBelow : Nat → List String → Bool
  | _, [] => true
  | depth, s :: ss =>
    if s = "." then staysBelow depth ss
    else if s = ".." then
      match depth with
      | 0 => false
      | depth + 1 => staysBelow depth ss
    else staysBelow (depth + 1) ss

/-- Whether a path name never leads above the directory it starts from. -/
def stays (p : PathName) : Bool := staysBelow 0 p.names

/-- The first few of names that stay stay as well. -/
theorem staysBelow_of_prefix {depth : Nat} {ss ts : List String} (h : ss <+: ts)
    (hts : staysBelow depth ts = true) : staysBelow depth ss = true := by
  induction ts generalizing depth ss with
  | nil => rw [List.prefix_nil.1 h]; rfl
  | cons t ts ih =>
    cases ss with
    | nil => rfl
    | cons s ss =>
      obtain ⟨rfl, hfirst⟩ := List.cons_prefix_cons.1 h
      unfold staysBelow at hts ⊢
      -- The test on the first name decides both; a path that has left the directory already stays
      -- outside.
      by_cases hdot : s = "."
      · rw [if_pos hdot] at hts ⊢
        exact ih hfirst hts
      · rw [if_neg hdot] at hts ⊢
        by_cases hdots : s = ".."
        · rw [if_pos hdots] at hts ⊢
          cases depth with
          | zero => exact hts
          | succ depth => exact ih hfirst hts
        · rw [if_neg hdots] at hts ⊢
          exact ih hfirst hts

example : (⟨"a/./../b.png"⟩ : PathName).stays ∧ ¬ (⟨"a/../../b.png"⟩ : PathName).stays := by
  decide +kernel

end PathName

/-! ## Following names -/

namespace Workspace

open PathName

variable {w : Workspace} {l m : Location}

/-- Steps one after the other lead from a directory, the first of them. -/
theorem follow_cons {s : String} {ss : List String} (h : w.follow l (s :: ss) = .ok m) :
    w.entryAt l = some .directory ∧ ∃ k, w.step l s = .ok k ∧ w.follow k ss = .ok m := by
  unfold follow at h
  split at h
  · cases h
  · next k hstep =>
    refine ⟨?_, k, hstep, h⟩
    unfold step at hstep
    split at hstep
    · cases hstep
    · cases hstep
    · next hentry => exact hentry

/-- Steps behind other steps go on where the others lead. -/
theorem follow_append {ss ts : List String} :
    w.follow l (ss ++ ts) = .ok m ↔ ∃ k, w.follow l ss = .ok k ∧ w.follow k ts = .ok m := by
  induction ss generalizing l with
  | nil => simp [follow]
  | cons s ss ih =>
    rw [List.cons_append, follow, follow]
    split
    · simp
    · exact ih

/-- A dot asks for a directory and stays in it. -/
private theorem follow_dot (h : w.follow l ["."] = .ok m) :
    m = l ∧ w.entryAt l = some .directory := by
  obtain ⟨hentry, k, hstep, hk⟩ := follow_cons h
  obtain rfl : l = k := by simpa [step, hentry] using hstep
  cases hk
  exact ⟨rfl, hentry⟩

/-- A path name finds what is at the location that it leads to. -/
theorem find_eq_ok {p : PathName} {e : Entry} :
    w.find p = .ok (l, e) ↔ w.locate p = .ok l ∧ w.entryAt l = some e := by
  unfold find
  cases w.locate p with
  | error e => simp
  | ok m =>
    constructor
    · intro h
      simp only at h
      split at h
      · cases h
      · next hentry =>
        cases h
        exact ⟨rfl, hentry⟩
    · rintro ⟨⟨⟩, hentry⟩
      simp only [hentry]

/-- A path name leads where its names lead. -/
theorem follow_names {p : PathName} (h : w.locate p = .ok l) :
    w.follow (w.startOf p) p.names = .ok l := by
  unfold locate at h
  split at h
  · cases h
  · rw [steps_eq] at h
    split at h
    · obtain ⟨k, hnames, hdot⟩ := follow_append.1 h
      rw [(follow_dot hdot).1]
      exact hnames
    · exact h

/-- Only a directory is where a path name with a slash at the end leads. -/
theorem entryAt_of_endsWithSlash {p : PathName} (h : w.locate p = .ok l)
    (hp : p.endsWithSlash = true) : w.entryAt l = some .directory := by
  unfold locate at h
  split at h
  · cases h
  · rw [steps_eq, if_pos hp] at h
    obtain ⟨k, -, hdot⟩ := follow_append.1 h
    obtain ⟨rfl, hentry⟩ := follow_dot hdot
    exact hentry

/-- An empty path name leads nowhere. -/
theorem locate_of_text_eq {p : PathName} (hp : p.text = "") : w.locate p = .error .notFound := by
  simp [locate, pathFault?, hp]

/-- A step that stays below a directory leads to a place below it, and it does so in every workspace
    and from every directory with the same names behind it. -/
theorem exists_step_below {d below k : Location} {s : String} {ss : List String}
    (h : staysBelow below.length (s :: ss) = true)
    (hentry : w.entryAt (d ++ below) = some .directory) (hstep : w.step (d ++ below) s = .ok k) :
    ∃ next, k = d ++ next ∧ staysBelow next.length ss = true ∧
      ∀ (w' : Workspace) (d' : Location), w'.entryAt (d' ++ below) = some .directory →
        w'.step (d' ++ below) s = .ok (d' ++ next) := by
  unfold staysBelow at h
  simp only [step, hentry] at hstep
  by_cases hdot : s = "."
  · rw [if_pos hdot] at h hstep
    cases hstep
    exact ⟨below, rfl, h, fun w' d' hentry' => by simp only [step, hentry', if_pos hdot]⟩
  · rw [if_neg hdot] at h hstep
    by_cases hdots : s = ".."
    · rw [if_pos hdots] at h hstep
      cases hstep
      -- As many names have been walked as the depth counts, so there is one to drop.
      rcases List.eq_nil_or_concat below with rfl | ⟨above, name, rfl⟩
      · exact absurd h Bool.false_ne_true
      · rw [List.concat_eq_append] at h ⊢
        rw [List.length_append] at h
        refine ⟨above, ?_, h, fun w' d' hentry' => ?_⟩
        · rw [← List.append_assoc, List.dropLast_concat]
        · simp only [step, hentry', if_neg hdot, if_pos hdots]
          rw [← List.append_assoc, List.dropLast_concat]
    · rw [if_neg hdots] at h hstep
      split at hstep
      · cases hstep
      · next hlength =>
        cases hstep
        refine ⟨below ++ [s], ?_, by rwa [List.length_append], fun w' d' hentry' => ?_⟩
        · rw [List.append_assoc]
        · simp only [step, hentry', if_neg hdot, if_neg hdots, if_neg hlength]
          rw [List.append_assoc]

/-- Names that stay below their start lead to a location below it. -/
theorem prefix_of_follow {d below : Location} {ss : List String}
    (h : staysBelow below.length ss = true) (hfollow : w.follow (d ++ below) ss = .ok l) :
    d <+: l := by
  induction ss generalizing below with
  | nil =>
    cases hfollow
    exact List.prefix_append d below
  | cons s ss ih =>
    obtain ⟨hentry, k, hstep, hk⟩ := follow_cons hfollow
    obtain ⟨next, rfl, hnext, -⟩ := exists_step_below h hentry hstep
    exact ih hnext hk

end Workspace

end Tapestry

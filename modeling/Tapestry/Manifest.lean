import Tapestry.Failure
import Tapestry.Size
import Tapestry.Yaml

/-!
# Manifests

A manifest holds the settings of a project: the seed image that expressions start from, where
scripts are looked for, which ones are left out, and where batch runs write. It is read from a YAML
map in which every key is optional; unknown keys are ignored, and a known key may not be given
twice.

* `Manifest.check_eq_ok`  a manifest passes the check exactly when its seed has an allowed size
-/

namespace Tapestry

/-- The settings of a project. -/
structure Manifest where
  width : Nat
  height : Nat
  seed : Bool
  sources : List String
  excludes : List String
  output : PathName
  deriving DecidableEq, Repr

namespace Manifest

/-- The name of the file that holds the settings of a project. -/
def fileName : PathName := ⟨"weave.yaml"⟩

/-- The settings of a project that sets none. -/
def standard : Manifest :=
  { width := 256, height := 256, seed := true
    sources := ["."], excludes := [], output := ⟨"dist"⟩ }

/-! ## Reading values -/

/-- The digits of a number after the sign, in a base below 17. -/
def readDigits (base : Nat) (cs : List Char) : Option Nat :=
  if cs = [] then none
  else cs.foldl (fun n? c =>
    match n?, Yaml.hexValue? c with
    | some n, some d => if d < base then some (base * n + d) else none
    | _, _ => none) (some 0)

/-- Read a whole number: an optional plus sign, then decimal digits that start with no surplus zero,
    or digits of another base behind its mark. -/
def readNumber (cs : List Char) : Option Nat :=
  match Text.dropPlus cs with
  | '0' :: 'x' :: digits => readDigits 16 digits
  | '0' :: 'o' :: digits => readDigits 8 digits
  | '0' :: 'b' :: digits => readDigits 2 digits
  | '0' :: _ :: _ => none
  | digits => readDigits 10 digits

/-- A number that fits a machine word. -/
def word? : Yaml → Option Nat
  | .scalar false s => (readNumber s.toList).filter (· < Text.wordLimit)
  | _ => none

/-- A truth value. -/
def bool? : Yaml → Option Bool
  | .scalar false "true" | .scalar false "True" | .scalar false "TRUE" => some true
  | .scalar false "false" | .scalar false "False" | .scalar false "FALSE" => some false
  | _ => none

/-- The text of any scalar. -/
def text? : Yaml → Option String
  | .scalar _ s => some s
  | _ => none

/-- A list of texts. A missing value is an empty list. -/
def texts? : Yaml → Option (List String)
  | .list vs => vs.mapM text?
  | .scalar false "" => some []
  | _ => none

/-! ## Reading manifests -/

/-- A manifest with one setting changed; `none` when the value does not fit the key. -/
def set? (m : Manifest) (key : String) (value : Yaml) : Option Manifest :=
  match key with
  | "width" => (word? value).map fun n => { m with width := n }
  | "height" => (word? value).map fun n => { m with height := n }
  | "seed" => (bool? value).map fun b => { m with seed := b }
  | "sources" => (texts? value).map fun l => { m with sources := l }
  | "excludes" => (texts? value).map fun l => { m with excludes := l }
  | "output" => (text? value).map fun s => { m with output := ⟨s⟩ }
  | _ => some m

/-- The keys that set something. -/
def keys : List String := ["width", "height", "seed", "sources", "excludes", "output"]

/-- A manifest with several settings changed. The second argument holds the known keys that were
    given before. -/
def setAll? (m : Manifest) (given : List String) : List (Yaml × Yaml) → Option Manifest
  | [] => some m
  | (.scalar _ key, value) :: entries =>
    if given.contains key then none
    else
      match m.set? key value with
      | none => none
      | some m => m.setAll? (if keys.contains key then key :: given else given) entries
  | _ :: _ => none

/-- The manifest of a YAML value. -/
def ofYaml? : Yaml → Option Manifest
  | .map entries => standard.setAll? [] entries
  | .scalar false "" => some standard
  | _ => none

/-- The manifest itself, when its seed has an allowed size. -/
def check (m : Manifest) : Except ConfigFault Manifest :=
  if m.width = 0 ∨ m.height = 0 then .error (.emptySeed m.width m.height)
  else if m.width ≤ maxSide ∧ m.height ≤ maxSide then .ok m
  else .error (.largeSeed m.width m.height)

/-- A manifest passes the check exactly when both sides of its seed are from 1 to `maxSide`, and is
    then unchanged. -/
theorem check_eq_ok {m n : Manifest} :
    m.check = .ok n ↔
      n = m ∧ (0 < m.width ∧ m.width ≤ maxSide) ∧ (0 < m.height ∧ m.height ≤ maxSide) := by
  unfold check
  split
  -- A seed without a side is refused before a large one.
  · rename_i h
    simp only [reduceCtorEq, false_iff]
    omega
  · rename_i h
    split
    · rename_i h'
      simp only [Except.ok.injEq, eq_comm (a := m)]
      constructor
      · intro e; exact ⟨e, by omega, by omega⟩
      · exact fun e => e.1
    · rename_i h'
      simp only [reduceCtorEq, false_iff]
      omega

/-- Read a manifest. A blank text sets nothing. -/
def ofText (s : String) : Except ConfigFault Manifest :=
  if Text.trim s.toList = [] then .ok standard
  else
    match (Yaml.read? s).bind ofYaml? with
    | none => .error .invalidManifest
    | some m => m.check

/-- The manifest in a directory, when there is one. -/
def find (files : Workspace) (directory : PathName) : Except Failure (Option Manifest) :=
  let path := directory.join fileName
  if files.isFile path then
    match files.readText path with
    | .error e => .error (.unreadable .manifest path e)
    | .ok s => ((ofText s).mapError .config).map some
  else .ok none

/-! ## Seeds -/

/-- The size of the image that expressions start from, unless there is none. -/
def seedSize (m : Manifest) : Option Size := if m.seed then some ⟨m.width, m.height⟩ else none

/-- The blank image that expressions start from, unless there is none. -/
def seedImage (m : Manifest) : Option Image :=
  m.seedSize.map fun size => Image.blank size.width size.height

/-- A manifest with the size of the seed, or the seed itself, changed for one run. -/
def withSeedOptions (m : Manifest) (size : Option String) (noSeed : Bool) :
    Except ConfigFault Manifest :=
  let m := if noSeed then { m with seed := false } else m
  match size with
  | none => .ok m
  | some s =>
    match Size.ofText s with
    | .ok size => .ok { m with width := size.width, height := size.height }
    | .error _ => .error (.invalidSizeOption s)

end Manifest

end Tapestry

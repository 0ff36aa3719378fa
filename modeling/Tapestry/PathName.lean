import Tapestry.Text.Basic

/-!
# Path names

A path name is a text. Two readings of it matter. As a list of *components* it is compared, sorted,
taken apart and asked for its extension; in this reading repeated slashes, a slash at the end and a
dot inside are invisible. As a list of *steps* it is followed through a tree of directories; there
every segment counts, and a slash at the end asks for a directory.

* `components`, `parent?`, `join`, `extension?`, `stripPrefix?`   the first reading
* `steps`                                                          the second reading
-/

namespace Tapestry

/-- The text of a path, as it was written or put together. -/
structure PathName where
  text : String
  deriving DecidableEq, Repr, Inhabited

namespace PathName

/-- One component of a path name. -/
inductive Component where
  | root
  | current
  | parent
  | name (s : String)
  deriving DecidableEq, Repr

/-- The texts between the slashes, empty ones included. -/
def splitSlashes : List Char → List (List Char)
  | [] => [[]]
  | c :: cs =>
    if c = '/' then [] :: splitSlashes cs
    else
      match splitSlashes cs with
      | [] => [[c]]
      | s :: ss => (c :: s) :: ss

/-- Segments with the offset at which each begins. -/
def place (offset : Nat) : List (List Char) → List (List Char × Nat)
  | [] => []
  | s :: ss => (s, offset) :: place (offset + s.length + 1) ss

/-- The component that a segment at an offset stands for, if any. -/
def Component.ofSegment? (segment : List Char) (offset : Nat) : Option Component :=
  if segment = [] then none
  else if segment = ['.'] then if offset = 0 then some .current else none
  else if segment = ['.', '.'] then some .parent
  else some (.name (String.ofList segment))

/-- A component with the place of the text it was read from. -/
structure Placed where
  component : Component
  start : Nat
  stop : Nat
  deriving Repr

/-- The components of a text with their places. -/
def placedComponents (cs : List Char) : List Placed :=
  let body := (place 0 (splitSlashes cs)).filterMap fun (s, offset) =>
    (Component.ofSegment? s offset).map fun c => ⟨c, offset, offset + s.length⟩
  if cs.head? = some '/' then ⟨.root, 0, 1⟩ :: body else body

/-- The components of a path name. -/
def components (p : PathName) : List Component :=
  (placedComponents p.text.toList).map Placed.component

/-- Whether a path name starts at the root. -/
def isAbsolute (p : PathName) : Bool := p.text.toList.head? = some '/'

/-! ## Order -/

/-- A component as a list of numbers whose lexicographic order is that of components: the root, the
    current directory, the parent, and names by their characters. -/
def Component.sortKey : Component → List Nat
  | root => [0]
  | current => [1]
  | parent => [2]
  | name s => 3 :: s.toList.map Char.toNat

/-- The components of a path name as numbers. -/
def sortKey (p : PathName) : List (List Nat) := p.components.map Component.sortKey

/-- Whether one path name comes before another or has the same components. A directory comes before
    what is in it, and what is in it before any name that follows its own. -/
def precedes (a b : PathName) : Bool :=
  !b.sortKey.lex a.sortKey fun m n => m.lex n fun i j => i < j

/-- Whether two path names have the same components. -/
def samePath (a b : PathName) : Bool := a.components = b.components

/-! ## Taking apart and putting together -/

/-- The path name without its last component; `none` for the empty text and for the root. -/
def parent? (p : PathName) : Option PathName :=
  let cs := p.text.toList
  match (placedComponents cs).reverse with
  | [] => none
  | ⟨.root, _, _⟩ :: _ => none
  | _ :: before :: _ => some ⟨String.ofList (cs.take before.stop)⟩
  | [_] => some ⟨""⟩

/-- Follow one path name by another. An absolute one replaces the first. -/
def join (a b : PathName) : PathName :=
  if b.isAbsolute then b
  else if a.text = "" ∨ a.text.toList.getLast? = some '/' then ⟨a.text ++ b.text⟩
  else ⟨a.text ++ "/" ++ b.text⟩

/-- The last component, when it is a name. -/
def fileName? (p : PathName) : Option String :=
  match p.components.getLast? with
  | some (.name s) => some s
  | _ => none

/-- What follows the last dot of a name, unless the name starts with that dot. -/
def extensionOf? (name : List Char) : Option (List Char) :=
  match Text.splitOnce (· == '.') name.reverse with
  | some (ext, stem) => if stem = [] then none else some ext.reverse
  | none => none

/-- The extension of a path name. -/
def extension? (p : PathName) : Option String :=
  (p.fileName?.bind fun s => extensionOf? s.toList).map String.ofList

/-- What remains of a path name after the components of another; `none` when it does not start with
    them. -/
def stripPrefix? (base p : PathName) : Option PathName :=
  let cs := p.text.toList
  let placed := placedComponents cs
  let n := base.components.length
  if base.components.isPrefixOf p.components then
    match placed.drop n, placed.getLast? with
    | first :: _, some last => some ⟨String.ofList ((cs.take last.stop).drop first.start)⟩
    | _, _ => some ⟨""⟩
  else none

/-! ## Following -/

/-- The segments to follow one after the other. A slash at the end is followed by a dot: it asks for
    a directory. -/
def steps (p : PathName) : List String :=
  let cs := p.text.toList
  let named := ((splitSlashes cs).filter (· ≠ [])).map String.ofList
  if cs.getLast? = some '/' then named ++ ["."] else named

/-- Whether a path name ends with a slash. -/
def endsWithSlash (p : PathName) : Bool := p.text.toList.getLast? = some '/'

end PathName

end Tapestry

import Tapestry.HandleTable
import Tapestry.Text.Printable
import Tapestry.Workspace

/-!
# Handlers and registries

A handler is what a command does: it gets the texts of its arguments, perhaps an input image, and
the handles made so far, and gives an image or an error. It may read and write files, so it runs on
a workspace. A registry maps names to handlers; the commands behind infix operators are in it like
all others.

* `get?_insert`, `get?_remove`  what a change of a registry does to its look-up
-/

namespace Tapestry

/-- What a handler is called with. -/
structure Call where
  args : List String
  input : Option Image
  handles : HandleTable

/-- A computation that may change files and may fail; what it changed before failing stays. -/
abbrev FileM := EStateM EvalError Workspace

/-- What a command does. -/
abbrev Handler := Call → FileM Image

/-- A handler that touches no file. -/
def Handler.ofFunction (f : Call → Except EvalError Image) : Handler := fun call files =>
  match f call with
  | .ok image => .ok image files
  | .error e => .error e files

/-- Handlers by name. -/
structure Registry where
  commands : List (String × Handler)

namespace Registry

/-- A registry without handlers. -/
def empty : Registry := ⟨[]⟩

/-- The handler with a name. -/
def get? (r : Registry) (name : String) : Option Handler := r.commands.lookup name

/-- Whether a name has a handler. -/
def contains (r : Registry) (name : String) : Bool := (r.get? name).isSome

/-- Take a name out. -/
def remove (r : Registry) (name : String) : Registry := ⟨r.commands.filter (·.1 ≠ name)⟩

/-- Put a handler in place of the one with the same name. -/
def insert (r : Registry) (name : String) (handler : Handler) : Registry :=
  ⟨(name, handler) :: (r.remove name).commands⟩

/-- The registry of a list of handlers; of several with one name the last counts. -/
def ofList (commands : List (String × Handler)) : Registry :=
  commands.foldl (fun r (name, handler) => r.insert name handler) empty

/-- The names in ascending order. -/
def names (r : Registry) : List String := (r.commands.map Prod.fst).mergeSort fun a b => a ≤ b

/-- The number of handlers. -/
def size (r : Registry) : Nat := r.commands.length

/-- The description of a registry: its names in ascending order, each between quotes. -/
def describe (r : Registry) : String :=
  "Registry \x7b commands: [" ++ String.intercalate ", " (r.names.map Text.shown) ++ "] \x7d"

/-- Taking a name out hides it and no other. -/
theorem get?_remove (r : Registry) (name other : String) :
    (r.remove name).get? other = if other = name then none else r.get? other :=
  lookup_filter_ne r.commands name other

/-- Putting a handler in changes what its name finds and nothing else. -/
theorem get?_insert (r : Registry) (name other : String) (handler : Handler) :
    (r.insert name handler).get? other = if other = name then some handler else r.get? other :=
  lookup_cons_filter_ne r.commands name handler other

end Registry

end Tapestry

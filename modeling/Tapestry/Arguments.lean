import Tapestry.Decimal.Binary32
import Tapestry.HandleTable
import Tapestry.Size

/-!
# Arguments of a command

A command gets plain texts. One with an equals sign after at least one character is a keyword with
its value; all others are positional and keep their order. The functions below find an argument and
read it as what the command needs; what they throw has no command name yet.
-/

namespace Tapestry

/-- Arguments split into positional ones and keywords. -/
structure Arguments where
  positional : List String
  keywords : List (String × String)
  deriving DecidableEq, Repr

/-- Read a text as a keyword and its value. -/
def keywordOf? (s : String) : Option (String × String) :=
  match Text.splitOnce (· == '=') s.toList with
  | some (key, value) => if key = [] then none else some (String.ofList key, String.ofList value)
  | none => none

/-- Read a text as a whole number below 2 ^ 32. -/
def wordOfText (s what : String) : Except EvalError Nat :=
  match Text.readWord s.toList with
  | some n => .ok n
  | none => .error (.fault (.notAnInteger what s))

/-- Read a text as a finite number. -/
def floatOfText (s what : String) : Except EvalError Float32 :=
  match Binary32.read? s with
  | some x => .ok x
  | none => .error (.fault (.notANumber what s))

/-- The input image of a command that cannot do without one. -/
def requireInput (input : Option Image) : Except EvalError Image :=
  match input with
  | some image => .ok image
  | none => .error .noInput

/-- The image of a text that has to be a handle. -/
def imageOfText (handles : HandleTable) (s : String) : Except EvalError Image :=
  if isHandle s then handles.resolve s else .error (.fault (.notAnImage s))

namespace Arguments

/-- Split the texts that a command was called with. -/
def ofList (args : List String) : Arguments :=
  { positional := args.filter fun s => (keywordOf? s).isNone
    keywords := args.filterMap keywordOf? }

/-- The number of positional arguments. -/
def count (a : Arguments) : Nat := a.positional.length

/-- Whether there are no arguments at all. -/
def isEmpty (a : Arguments) : Bool := a.positional.isEmpty && a.keywords.isEmpty

/-- A positional argument that may be missing. -/
def positional? (a : Arguments) (index : Nat) : Option String := a.positional[index]?

/-- A positional argument that has to be there. -/
def require (a : Arguments) (index : Nat) (what : String) : Except EvalError String :=
  match a.positional? index with
  | some s => .ok s
  | none => .error (.fault (.missing what index))

/-- The value of a keyword; of several the last. -/
def keyword? (a : Arguments) (key : String) : Option String := a.keywords.reverse.lookup key

/-- Whether a positional argument is the given word. -/
def flag (a : Arguments) (word : String) : Bool := a.positional.contains word

/-- A positional argument as a colour. -/
def colour (a : Arguments) (index : Nat) (what : String) : Except EvalError Colour :=
  match a.require index what with
  | .error e => .error e
  | .ok s => (Colour.ofText s).mapError .fault

/-- A positional argument as a whole number. -/
def word (a : Arguments) (index : Nat) (what : String) : Except EvalError Nat :=
  match a.require index what with
  | .error e => .error e
  | .ok s => wordOfText s what

/-- A keyword as a whole number, or a default. -/
def keywordWord (a : Arguments) (key : String) (default : Nat) : Except EvalError Nat :=
  match a.keyword? key with
  | some s => wordOfText s key
  | none => .ok default

/-- A keyword as a number, or a default. -/
def keywordFloat (a : Arguments) (key : String) (default : Float32) : Except EvalError Float32 :=
  match a.keyword? key with
  | some s => floatOfText s key
  | none => .ok default

/-- A positional argument as an image. -/
def image (a : Arguments) (handles : HandleTable) (index : Nat) : Except EvalError Image :=
  match a.require index "image" with
  | .error e => .error e
  | .ok s => imageOfText handles s

/-- A keyword as an image; `none` when the keyword is not given. -/
def keywordImage? (a : Arguments) (handles : HandleTable) (key : String) :
    Except EvalError (Option Image) :=
  match a.keyword? key with
  | some s => (imageOfText handles s).map some
  | none => .ok none

/-- The size to paint at: the keyword `size`, or else the size of the input. -/
def size (a : Arguments) (input : Option Image) : Except EvalError Size :=
  match a.keyword? "size" with
  | some s => (Size.ofText s).mapError .fault
  | none => (requireInput input).map Image.size

end Arguments

end Tapestry

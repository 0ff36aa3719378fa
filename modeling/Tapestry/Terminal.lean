import Tapestry.Diagnostic
import Tapestry.Text.Basic
import Tapestry.Workspace

/-!
# Lines for the terminal

A status line is a verb, set flush right in a column of its own, and a message. A terminal with
colour shows the verb bold and in the colour of its tone; without colour no escape code is written
at all.
-/

namespace Tapestry

/-- The escape codes that change how a terminal writes. -/
inductive Style where
  | reset
  | bold
  | dim
  | red
  | green
  | yellow
  | cyan
  deriving DecidableEq, Repr, Inhabited

/-- The text of an escape code. -/
def Style.code : Style → String
  | reset => "\x1b[0m"
  | bold => "\x1b[1m"
  | dim => "\x1b[2m"
  | red => "\x1b[31m"
  | green => "\x1b[32m"
  | yellow => "\x1b[33m"
  | cyan => "\x1b[36m"

/-- What a status line is about, which decides the colour of its verb. -/
inductive Tone where
  | status
  | info
  | warning
  | error
  deriving DecidableEq, Repr, Inhabited

/-- The colour of a tone. -/
def Tone.style : Tone → Style
  | status => .green
  | info => .cyan
  | warning => .yellow
  | error => .red

/-- The width of the column of verbs, in characters. -/
def verbWidth : Nat := 12

/-- How lines are written: with escape codes or without. -/
structure Terminal where
  colour : Bool
  deriving DecidableEq, Repr, Inhabited

namespace Terminal

/-- A text in a style. -/
def paint (t : Terminal) (style : Style) (text : String) : String :=
  if t.colour then style.code ++ text ++ Style.reset.code else text

/-- A status line whose verb follows the given escape code. -/
def lineWith (t : Terminal) (code verb message : String) : String :=
  let verb := Text.padLeft verbWidth verb
  if t.colour then Style.bold.code ++ code ++ verb ++ Style.reset.code ++ " " ++ message
  else verb ++ " " ++ message

/-- A status line. -/
def line (t : Terminal) (tone : Tone) (verb message : String) : String :=
  t.lineWith tone.style.code verb message

end Terminal

/-- Something shown to the user beside the result of a run: a status line or the report of an
    error. -/
inductive Notice where
  | line (text : String)
  | report (diagnostic : Diagnostic)
  deriving DecidableEq, Repr, Inhabited

/-- How a path name is shown: relative to the working directory where it lies below it. -/
def Workspace.displayPath (w : Workspace) (p : PathName) : String :=
  match (Location.path w.current).stripPrefix? p with
  | some q => if q.text = "" then "." else q.text
  | none => p.text

end Tapestry

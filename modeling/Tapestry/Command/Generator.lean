import Tapestry.Arguments
import Tapestry.Image.Pattern
import Tapestry.Registry

/-!
# Generators

Commands that paint a pattern. The arguments of the pattern are read first, in order, and the size
last: it is the keyword `size`, or else the size of the input, whose pixels are never read.
-/

namespace Tapestry.Command

/-- A count that has to be at least 1. -/
def requirePositive (n : Nat) (what : String) : Except EvalError Nat :=
  if n = 0 then .error (.fault (.notPositive what)) else .ok n

/-- The pattern of `blank`. -/
def readBlank (_ : Arguments) : Except EvalError Pattern := .ok (.solid .transparent)

/-- The pattern of `fill COLOUR`. -/
def readFill (args : Arguments) : Except EvalError Pattern := do
  let colour ← args.colour 0 "colour"
  pure (.solid colour)

/-- The pattern of `checkers A B [cell=N]`. -/
def readCheckers (args : Arguments) : Except EvalError Pattern := do
  let first ← args.colour 0 "first colour"
  let second ← args.colour 1 "second colour"
  let cell ← args.keywordWord "cell" 1
  let cell ← requirePositive cell "cell"
  pure (.checkers first second cell)

/-- The pattern of `stripes A B [width=N] [vertical]`: bands below each other, or beside each other
    when vertical. -/
def readStripes (args : Arguments) : Except EvalError Pattern := do
  let first ← args.colour 0 "first colour"
  let second ← args.colour 1 "second colour"
  let band ← args.keywordWord "width" 1
  let band ← requirePositive band "width"
  pure (.stripes first second band (if args.flag "vertical" then .across else .down))

/-- The pattern of `circle FG BG`. -/
def readCircle (args : Arguments) : Except EvalError Pattern := do
  let inner ← args.colour 0 "foreground colour"
  let outer ← args.colour 1 "background colour"
  pure (.circle inner outer)

/-- The pattern of `gradient A B [vertical]`: from left to right, or from top to bottom when
    vertical. -/
def readGradient (args : Arguments) : Except EvalError Pattern := do
  let start ← args.colour 0 "start colour"
  let stop ← args.colour 1 "end colour"
  pure (.gradient start stop (if args.flag "vertical" then .down else .across))

/-- A command that paints the pattern its arguments describe. -/
def generator (read : Arguments → Except EvalError Pattern) : Handler :=
  .ofFunction fun call => do
    let args := Arguments.ofList call.args
    let pattern ← read args
    let size ← args.size call.input
    pure (pattern.paint size)

end Tapestry.Command

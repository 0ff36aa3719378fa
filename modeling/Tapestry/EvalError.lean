import Tapestry.Diagnostic

/-!
# Errors of evaluation

`EvalError` names the causes for which a tree has no image. Four of them are raised by the command
itself, which does not know the name it was called by: those start with an empty name, and
`EvalError.inCommand` fills it in once. The other three are raised while looking a name up.

`ArgumentFault` lists what can be wrong with an argument; its wording is in `ArgumentFault.message`
and nowhere else.
-/

namespace Tapestry

/-- The largest number of pixels along one side of an image that any command makes. -/
def maxSide : Nat := 16384

/-- What is wrong with the arguments of a command. -/
inductive ArgumentFault where
  | missing (what : String) (index : Nat)
  | notAnImage (value : String)
  | notAnInteger (what value : String)
  | notANumber (what value : String)
  | invalidSize (value : String)
  | tooLarge (width height : Nat)
  | scaleOverflow (width height factor : Nat)
  | sizeMismatch (width height otherWidth otherHeight : Nat)
  | notAColour (value : String)
  | invalidHexDigit (digit : Char)
  | invalidHexColour (value : String)
  | notPositive (what : String)
  | unsupportedAngle (value : String)
  | unknownJoinMode (value : String)
  | amountOutOfRange (amount : String)
  | other (text : String)
  deriving DecidableEq, Repr, Inhabited

/-- The wording of a fault. -/
def ArgumentFault.message : ArgumentFault → String
  | .missing what index => s!"missing {what} (argument {index + 1})"
  | .notAnImage value => s!"expected an image, got '{value}' (wrap an expression in parentheses)"
  | .notAnInteger what value => s!"{what}: not a non-negative integer: {value}"
  | .notANumber what value => s!"{what}: not a number: {value}"
  | .invalidSize value => s!"invalid size: {value} (use WxH, e.g. 64x64)"
  | .tooLarge width height => s!"image too large: {width}x{height} (max {maxSide} per side)"
  | .scaleOverflow width height factor =>
    s!"image too large: {width}x{height} times {factor} overflows"
  | .sizeMismatch width height otherWidth otherHeight =>
    s!"size mismatch: {width}x{height} vs {otherWidth}x{otherHeight}"
  | .notAColour value => s!"not a colour: {value} (use a name like red or #RRGGBB)"
  | .invalidHexDigit digit => s!"invalid hex digit: {digit}"
  | .invalidHexColour value =>
    s!"invalid hex colour: {value} (use #RGB, #RGBA, #RRGGBB, or #RRGGBBAA)"
  | .notPositive what => s!"{what} must be at least 1"
  | .unsupportedAngle value => s!"unsupported angle: {value} (use 90, 180 or 270)"
  | .unknownJoinMode value => s!"unknown join mode: {value} (use overlay, under or replace)"
  | .amountOutOfRange amount => s!"amount must be between 0 and 1, got {amount}"
  | .other text => text

/-- Why evaluating a tree, or calling a command, gave no image. -/
inductive EvalError where
  | unknownCommand (name : String)
  | unknownOperator (symbol : String)
  | operatorNotImplemented (symbol command : String)
  | missingInput (command : String)
  | badArgument (command : String) (fault : ArgumentFault)
  | unknownHandle (command handle : String)
  | writeFailed (command path reason : String)
  deriving DecidableEq, Repr, Inhabited

namespace EvalError

/-- A fault found by a command, before its name is known. -/
def fault (f : ArgumentFault) : EvalError := .badArgument "" f

/-- A command without its input image, before its name is known. -/
def noInput : EvalError := .missingInput ""

/-- Name the command an error comes from, unless it already has one or was raised by a look-up. -/
def inCommand (name : String) : EvalError → EvalError
  | .missingInput "" => .missingInput name
  | .badArgument "" f => .badArgument name f
  | .unknownHandle "" handle => .unknownHandle name handle
  | .writeFailed "" path reason => .writeFailed name path reason
  | e => e

/-- The command an error is attributed to; `none` for the errors of a look-up. -/
def command? : EvalError → Option String
  | .missingInput command | .badArgument command _ | .unknownHandle command _
  | .writeFailed command _ _ => some command
  | .unknownCommand _ | .unknownOperator _ | .operatorNotImplemented _ _ => none

/-- The wording of an error. -/
def message : EvalError → String
  | .unknownCommand name => s!"Unknown command: {name}"
  | .unknownOperator symbol => s!"Unknown operator: {symbol}"
  | .operatorNotImplemented symbol command =>
    s!"Operator '{symbol}' is not implemented (no '{command}' command registered)"
  | .missingInput command => s!"{command}: requires an input image"
  | .badArgument command fault => s!"{command}: {fault.message}"
  | .unknownHandle command handle => s!"{command}: unknown image handle '{handle}'"
  | .writeFailed command path reason => s!"{command}: failed to write {path}: {reason}"

/-- The code that names the kind of an error. -/
def code : EvalError → String
  | .unknownCommand _ => "weave::eval::unknown_command"
  | .unknownOperator _ => "weave::eval::unknown_operator"
  | .operatorNotImplemented _ _ => "weave::eval::operator_not_implemented"
  | .missingInput _ => "weave::eval::missing_input"
  | .badArgument _ _ => "weave::eval::bad_argument"
  | .unknownHandle _ _ => "weave::eval::unknown_handle"
  | .writeFailed _ _ _ => "weave::eval::io"

/-- Advice on an error. -/
def help : EvalError → Option String
  | .unknownCommand _ => some "Run `weave list` to see available commands"
  | .missingInput _ => some "Pipe an image into it, or pass size=WxH to generators"
  | _ => none

/-- The report of an error. An error of evaluation points at no text. -/
def diagnostic (e : EvalError) : Diagnostic :=
  { message := e.message, code := e.code, help := e.help, labels := none }

/-- A name is filled in once: the innermost command keeps it. -/
theorem inCommand_of_command? {e : EvalError} {c : String} (h : e.command? = some c) (hc : c ≠ "")
    (name : String) : e.inCommand name = e := by
  cases e <;> simp only [command?, reduceCtorEq, Option.some.injEq] at h <;> subst h <;>
    unfold inCommand <;> split <;> simp_all

/-- An error without a name takes the one it is given. -/
theorem command?_inCommand {e : EvalError} (h : e.command? = some "") (name : String) :
    (e.inCommand name).command? = some name := by
  cases e <;> simp only [command?, reduceCtorEq, Option.some.injEq] at h <;> subst h <;> rfl

/-- The errors of a look-up pass through every command unchanged. -/
theorem inCommand_of_command?_none {e : EvalError} (h : e.command? = none) (name : String) :
    e.inCommand name = e := by
  cases e <;> simp only [command?, reduceCtorEq] at h <;> rfl

end EvalError

end Tapestry

import Tapestry.CommandLine.Grammar

/-!
# Help on the command line

What is shown when the words of a command line are no request: what was wrong with them, and how the
program is called. The usage lines are read off the grammar.
-/

namespace Tapestry

/-- How an option is written in a usage line. -/
def Flag.usage (f : Flag) : String :=
  let letter := match f.letter? with
    | some c => s!"-{c}|"
    | none => ""
  let value := if f.takesValue then s!" {f.long.toUpper}" else ""
  s!"[{letter}--{f.long}{value}]"

/-- How the operands of a sub-command are written in a usage line. -/
def Subcommand.operandUsage : Subcommand → String
  | render | check => " EXPR"
  | completions => " SHELL"
  | batch => " [PATH]..."
  | repl | list => ""

/-- The usage line of a sub-command. -/
def Subcommand.usage (c : Subcommand) : String :=
  let flags := String.join (c.flags.map fun f => " " ++ f.usage)
  s!"  {programName} {c.name}{c.operandUsage}{flags}\n"

namespace CommandLine

/-- How the program is called. -/
def usage : String := "Usage:\n" ++ String.join (Subcommand.all.map Subcommand.usage)

end CommandLine

namespace UsageError

/-- What was wrong with the words of a command line; empty when only help was asked for. -/
def message : UsageError → String
  | help | version | nothingAsked => ""
  | missingSubcommand => "a sub-command is missing"
  | unknownSubcommand word => s!"unknown sub-command '{word}'"
  | unknownArgument word => s!"unexpected argument '{word}'"
  | missingValue => "an option is without its value"
  | emptyPath => "a path is empty"
  | unknownShell word => s!"unknown shell '{word}'"
  | invalidNumber word => s!"invalid number '{word}'"
  | repeated => "an option was given more than once"
  | surplusValue => "an option that takes no value was given one"
  | missingOperand => "an operand is missing"

/-- What is shown for a command line that is no request. -/
def report (e : UsageError) : String :=
  match e with
  | version => s!"{programName} {programVersion}\n"
  | help | nothingAsked => CommandLine.usage
  | _ => s!"error: {e.message}\n\n{CommandLine.usage}"

end UsageError

end Tapestry

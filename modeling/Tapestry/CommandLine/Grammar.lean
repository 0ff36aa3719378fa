import Tapestry.CommandLine.Request

/-!
# The grammar of the command line

Every sub-command has options, each under a long name and some under a letter as well, and takes no,
one or many operands. The tables here say which; `Tapestry.CommandLine.Read` reads words by them.
-/

namespace Tapestry

/-- The name of the program. -/
def programName : String := "weave"

/-- The version of the program. -/
def programVersion : String := "0.4.0"

/-- The options. -/
inductive Flag where
  | verbose
  | help
  | version
  | output
  | size
  | noSeed
  | scale
  | json
  | kind
  deriving DecidableEq, Repr, Inhabited

namespace Flag

/-- The name of an option, behind two dashes. -/
def long : Flag → String
  | verbose => "verbose"
  | help => "help"
  | version => "version"
  | output => "output"
  | size => "size"
  | noSeed => "no-seed"
  | scale => "scale"
  | json => "json"
  | kind => "kind"

/-- The letter of an option, behind one dash. -/
def letter? : Flag → Option Char
  | verbose => some 'v'
  | help => some 'h'
  | version => some 'V'
  | output => some 'o'
  | _ => none

/-- Whether an option comes with a value. -/
def takesValue : Flag → Bool
  | output | size | scale | kind => true
  | verbose | help | version | noSeed | json => false

end Flag

/-- The operands of a sub-command. -/
inductive Operands where
  | none
  | one
  | many
  deriving DecidableEq, Repr, Inhabited

/-- The sub-commands. -/
inductive Subcommand where
  | render
  | check
  | repl
  | batch
  | list
  | completions
  deriving DecidableEq, Repr, Inhabited

namespace Subcommand

/-- All sub-commands. -/
def all : List Subcommand := [render, check, repl, batch, list, completions]

/-- The name of a sub-command. -/
def name : Subcommand → String
  | render => "render"
  | check => "check"
  | repl => "repl"
  | batch => "batch"
  | list => "list"
  | completions => "completions"

/-- The sub-command with a name. -/
def ofName? (s : String) : Option Subcommand := all.find? fun c => c.name == s

/-- The options of a sub-command beside those that all of them have. -/
def ownFlags : Subcommand → List Flag
  | render => [.output, .size, .noSeed, .scale]
  | check => [.json]
  | repl => [.size, .noSeed]
  | batch => [.output]
  | list => [.kind]
  | completions => []

/-- The options of a sub-command. -/
def flags (c : Subcommand) : List Flag := c.ownFlags ++ [.verbose, .help]

/-- The operands of a sub-command. -/
def operands : Subcommand → Operands
  | render | check | completions => .one
  | batch => .many
  | repl | list => .none

end Subcommand

/-- The options before the sub-command. -/
def rootFlags : List Flag := [.verbose, .help, .version]

/-- The word that asks for help on a sub-command. -/
def helpWord : String := "help"

end Tapestry

import Tapestry.PathName

/-!
# Requests

What the program is asked to do, once the words of the command line are understood, and the reasons
for which they are not.
-/

namespace Tapestry

/-- The shells that completions can be written for. -/
inductive Shell where
  | bash
  | elvish
  | fish
  | powershell
  | zsh
  deriving DecidableEq, Repr, Inhabited

namespace Shell

/-- All shells. -/
def all : List Shell := [bash, elvish, fish, powershell, zsh]

/-- The name of a shell. -/
def name : Shell → String
  | bash => "bash"
  | elvish => "elvish"
  | fish => "fish"
  | powershell => "powershell"
  | zsh => "zsh"

/-- The shell with a name. -/
def ofName? (s : String) : Option Shell := all.find? fun shell => shell.name == s

end Shell

/-- What is asked of the seed image in place of what the manifest says. -/
structure SeedOptions where
  size : Option String
  noSeed : Bool
  deriving DecidableEq, Repr

/-- What the program is asked to do. -/
inductive Request where
  /-- Evaluate an expression and perhaps write its image, enlarged, to a file. -/
  | render (expr : String) (output : Option PathName) (seed : SeedOptions) (scale : Nat)
  /-- Write the tree of an expression. -/
  | check (expr : String) (json : Bool)
  /-- Evaluate the lines of the input. -/
  | repl (seed : SeedOptions)
  /-- Evaluate scripts. -/
  | batch (paths : List PathName) (output : Option PathName)
  /-- List the commands, perhaps of one kind only. -/
  | list (kind : Option String)
  /-- Write a completion script. -/
  | completions (shell : Shell)
  deriving DecidableEq, Repr

/-- A request with the number of times that more log output was asked for. -/
structure CommandLine where
  verbosity : Nat
  request : Request
  deriving DecidableEq, Repr

/-- Why the words of a command line are no request. Asking for help or for the version is one of the
    reasons. -/
inductive UsageError where
  | help
  | version
  | nothingAsked
  | missingSubcommand
  | unknownSubcommand (word : String)
  | unknownArgument (word : String)
  | missingValue
  | emptyPath
  | unknownShell (word : String)
  | invalidNumber (word : String)
  | repeated
  | surplusValue
  | missingOperand
  deriving DecidableEq, Repr, Inhabited

namespace UsageError

/-- The exit code of the program: help and the version are no errors for the shell. -/
def exitCode : UsageError → Nat
  | help | version => 0
  | _ => 2

end UsageError

end Tapestry

import Tapestry.Command
import Tapestry.Program.Transcript

/-!
# Listing the commands

One line for every built-in command with its usage, grouped by kind and sorted by name.
-/

namespace Tapestry.Program

/-- How the usage of a command is listed: its synopsis, behind the name when it does not start with
    it. -/
def usageLine (b : Builtin) : String :=
  if b.name.toList.isPrefixOf b.synopsis.toList then b.synopsis else s!"{b.name} ({b.synopsis})"

/-- The built-in commands of one kind that a registry holds, sorted by name. -/
def commandsOfKind (registry : Registry) (kind : CommandKind) : List Builtin :=
  (registry.names.filterMap Builtin.ofName?).filter fun b => b.kind = kind

/-- The kinds to list: the one with the given name, if there is any such kind, or all of them. -/
def listedKinds (name : Option String) : List CommandKind :=
  match name with
  | none => CommandKind.all
  | some name => CommandKind.all.filter fun kind => kind.name == name

/-- List the built-in commands, perhaps of one kind only. -/
def list (terminal : Terminal) (kind : Option String) : ProgramM Unit := do
  let listed := (listedKinds kind).flatMap (commandsOfKind .builtins)
  listed.forM fun b => say terminal .info b.kind.name (usageLine b)
  say terminal .status "Listed" (Text.plural listed.length "command" "commands")

end Tapestry.Program

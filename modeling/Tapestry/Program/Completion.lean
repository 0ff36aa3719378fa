import Tapestry.CommandLine.Grammar

/-!
# Completion scripts

Scripts that teach a shell the sub-commands of the program and their options. What is offered is
read off the grammar of the command line, so it cannot name anything that the program refuses.
-/

namespace Tapestry.Completion

/-- An option as it is written, under its long name. -/
def longWord (flag : Flag) : String := "--" ++ flag.long

/-- The ways to write an option. -/
def flagWords (flag : Flag) : List String :=
  match flag.letter? with
  | some c => [longWord flag, "-" ++ String.singleton c]
  | none => [longWord flag]

/-- The words that may come before the sub-command. -/
def rootWords : List String :=
  Subcommand.all.map Subcommand.name ++ [helpWord] ++ rootFlags.flatMap flagWords

/-- The words that may follow a sub-command. -/
def words (c : Subcommand) : List String :=
  let operands := match c with
    | .completions => Shell.all.map Shell.name
    | _ => []
  operands ++ c.flags.flatMap flagWords

/-- Words with blanks between them. -/
def joined (ws : List String) : String := String.intercalate " " ws

/-- Words in single quotes, separated as given. -/
def quoted (separator : String) (ws : List String) : String :=
  String.intercalate separator (ws.map fun w => "'" ++ w ++ "'")

/-- Lines, each with its line feed. -/
def ofLines (ls : List String) : String := String.join (ls.map (· ++ "\n"))

/-- The script of Bash: one case for every sub-command. -/
def bash : String :=
  ofLines ([
    "_" ++ programName ++ "() \x7b",
    "  local word=\"$\x7bCOMP_WORDS[COMP_CWORD]\x7d\" command=\"$\x7bCOMP_WORDS[1]\x7d\"",
    "  local offered=\"" ++ joined rootWords ++ "\"",
    "  if [ \"$COMP_CWORD\" -gt 1 ]; then",
    "    case \"$command\" in"]
    ++ Subcommand.all.map (fun c =>
      "      " ++ c.name ++ ") offered=\"" ++ joined (words c) ++ "\" ;;")
    ++ [
    "    esac",
    "  fi",
    "  COMPREPLY=($(compgen -W \"$offered\" -- \"$word\"))",
    "\x7d",
    "complete -o default -F _" ++ programName ++ " " ++ programName])

/-- The script of Zsh: one case for every sub-command. -/
def zsh : String :=
  ofLines ([
    "#compdef " ++ programName,
    "_" ++ programName ++ "() \x7b",
    "  if (( CURRENT == 2 )); then",
    "    compadd -- " ++ joined rootWords,
    "    return",
    "  fi",
    "  case \"$words[2]\" in"]
    ++ Subcommand.all.map (fun c =>
      "    " ++ c.name ++ ") compadd -- " ++ joined (words c) ++ " ;;")
    ++ [
    "  esac",
    "  _files",
    "\x7d",
    "compdef _" ++ programName ++ " " ++ programName])

/-- The line of Fish that offers an option under a condition. -/
def fishFlag (condition : String) (flag : Flag) : String :=
  let letter := match flag.letter? with
    | some c => " -s " ++ String.singleton c
    | none => ""
  "complete -c " ++ programName ++ " -n '" ++ condition ++ "'" ++ letter ++ " -l " ++ flag.long
    ++ (if flag.takesValue then " -r" else "")

/-- The script of Fish: one line for every word. -/
def fish : String :=
  ofLines (
    rootFlags.map (fishFlag "__fish_use_subcommand")
    ++ Subcommand.all.map (fun c =>
      "complete -c " ++ programName ++ " -n '__fish_use_subcommand' -a " ++ c.name)
    ++ Subcommand.all.flatMap fun c =>
      c.flags.map (fishFlag ("__fish_seen_subcommand_from " ++ c.name)))

/-- The script of Elvish: one entry for every sub-command. -/
def elvish : String :=
  ofLines ([
    "set edit:completion:arg-completer[" ++ programName ++ "] = \x7b|@words|",
    "  var offered = [",
    "    &''=[" ++ quoted " " rootWords ++ "]"]
    ++ Subcommand.all.map (fun c => "    &" ++ c.name ++ "=[" ++ quoted " " (words c) ++ "]")
    ++ [
    "  ]",
    "  var command = ''",
    "  if (> (count $words) 2) \x7b set command = $words[1] \x7d",
    "  if (has-key $offered $command) \x7b all $offered[$command] \x7d",
    "\x7d"])

/-- The script of PowerShell: one entry for every sub-command. -/
def powershell : String :=
  ofLines ([
    "Register-ArgumentCompleter -Native -CommandName '" ++ programName ++ "' -ScriptBlock \x7b",
    "  param($word, $tree, $position)",
    "  $offered = @\x7b",
    "    '' = @(" ++ quoted ", " rootWords ++ ")"]
    ++ Subcommand.all.map (fun c => "    '" ++ c.name ++ "' = @(" ++ quoted ", " (words c) ++ ")")
    ++ [
    "  \x7d",
    "  $command = ''",
    "  if ($tree.CommandElements.Count -gt 2) \x7b $command = $tree.CommandElements[1].Value \x7d",
    "  $offered[$command] | Where-Object \x7b $_ -like \"$word*\" \x7d",
    "\x7d"])

/-- The completion script of a shell. -/
def script : Shell → String
  | .bash => bash
  | .elvish => elvish
  | .fish => fish
  | .powershell => powershell
  | .zsh => zsh

end Tapestry.Completion

import Tapestry.CommandLine.Grammar
import Tapestry.Text.Numeral

/-!
# Reading a command line

Words are read from left to right. An option may stand anywhere; two dashes end the options. The
value of an option, and an operand, is *waiting* until the next option or operand is known to be
one, and is looked at only then. So of two faults the one on the left is reported, except that a
word which is no argument at all is reported before a fault of what is waiting.
-/

namespace Tapestry.CommandLine

/-! ## Words -/

/-- The word that ends the options: every word behind it is an operand. -/
def endOfOptions : String := "--"

/-- What a word looks like before the options are looked up. -/
inductive Word where
  /-- A name behind two dashes, perhaps with a value behind an equals sign. -/
  | long (name : String) (value : Option String)
  /-- Letters behind one dash. -/
  | letters (cs : List Char)
  /-- Any other word; a single dash is one. -/
  | plain (word : String)
  deriving DecidableEq, Repr

/-- The shape of a word. -/
def Word.ofText (s : String) : Word :=
  match s.toList with
  | '-' :: '-' :: cs =>
    match Text.splitOnce (· == '=') cs with
    | some (name, value) => .long (String.ofList name) (some (String.ofList value))
    | none => .long (String.ofList cs) none
  | '-' :: c :: cs => .letters (c :: cs)
  | _ => .plain s

/-- The option of a list with a long name. -/
def longFlag? (flags : List Flag) (name : String) : Option Flag :=
  flags.find? fun f => f.long == name

/-- The option of a list with a letter. -/
def letterFlag? (flags : List Flag) (c : Char) : Option Flag :=
  flags.find? fun f => f.letter? == some c

/-! ## Drafts -/

/-- What was read last and is not looked at yet. -/
inductive Waiting where
  | nothing
  | value (flag : Flag) (text : Option String)
  | operands (words : List String)
  deriving DecidableEq, Repr

/-- What was read so far. `taken` says whether there was an operand. -/
structure Draft where
  verbosity : Nat
  given : List Flag
  values : List (Flag × String)
  operands : List String
  taken : Bool
  waiting : Waiting
  deriving DecidableEq, Repr

/-- The draft before the first word. -/
def Draft.start : Draft :=
  { verbosity := 0, given := [], values := [], operands := [], taken := false, waiting := .nothing }

/-- The largest number of times that asking for more log output counts. -/
def maxVerbosity : Nat := 255

/-- Read a factor: a sign, digits, and a number that fits a machine word. A minus sign is allowed
    before zero only. -/
def readFactor (cs : List Char) : Option Nat :=
  match cs with
  | '-' :: digits => (Text.readNat digits).filter (· = 0)
  | _ => Text.readWord cs

/-- Check the value of an option. -/
def checkValue (flag : Flag) (text : String) : Except UsageError Unit :=
  match flag with
  | .output => if text = "" then .error .emptyPath else .ok ()
  | .scale => if (readFactor text.toList).isSome then .ok () else .error (.invalidNumber text)
  | _ => .ok ()

/-- Check an operand of a sub-command. -/
def checkOperand (c : Subcommand) (text : String) : Except UsageError Unit :=
  match c with
  | .batch => if text = "" then .error .emptyPath else .ok ()
  | .completions =>
    if (Shell.ofName? text).isSome then .ok () else .error (.unknownShell text)
  | _ => .ok ()

namespace Draft

/-- Look at what is waiting: a value has to be there, its option must be given only once, and values
    and operands have to be what they are meant for. -/
def settle (c : Subcommand) (d : Draft) : Except UsageError Draft :=
  match d.waiting with
  | .nothing => .ok d
  | .value _ none => .error .missingValue
  | .value flag (some text) =>
    -- An option may be given only once, whatever its value.
    if d.given.contains flag then .error .repeated
    else
      match checkValue flag text with
      | .error e => .error e
      | .ok () =>
        .ok { d with
          given := flag :: d.given, values := (flag, text) :: d.values, waiting := .nothing }
  | .operands words =>
    match words.forM (checkOperand c) with
    | .error e => .error e
    | .ok () => .ok { d with operands := d.operands ++ words, waiting := .nothing }

/-- Take an option without a value. -/
def giveFlag (flag : Flag) (d : Draft) : Except UsageError Draft :=
  match flag with
  | .help => .error .help
  | .version => .error .version
  | .verbose => .ok { d with verbosity := min maxVerbosity (d.verbosity + 1) }
  | _ => if d.given.contains flag then .error .repeated else .ok { d with given := flag :: d.given }

/-- Take an option. Without a value of its own, the next word may be its value. -/
def takeFlag (c : Subcommand) (flag : Flag) (value : Option String) (d : Draft) :
    Except UsageError Draft :=
  match d.settle c with
  | .error e => .error e
  | .ok d =>
    if flag.takesValue then
      let d := { d with waiting := .value flag value }
      if value.isSome then d.settle c else .ok d
    else d.giveFlag flag

/-- Take the letters behind a dash. What follows the letter of an option with a value is that
    value. -/
def takeLetters (c : Subcommand) (word : String) (d : Draft) : List Char → Except UsageError Draft
  | [] => .ok d
  | l :: ls =>
    match letterFlag? c.flags l with
    | none => .error (.unknownArgument word)
    | some flag =>
      if flag.takesValue then
        match ls with
        | [] => d.takeFlag c flag none
        | '=' :: value => d.takeFlag c flag (some (String.ofList value))
        -- The letters behind an option that takes a value are the value.
        | value => d.takeFlag c flag (some (String.ofList value))
      else
        match d.takeFlag c flag none with
        | .error e => .error e
        | .ok d => takeLetters c word d ls

/-- Take an operand. -/
def takeOperand (c : Subcommand) (word : String) (d : Draft) : Except UsageError Draft :=
  match c.operands, d.waiting with
  -- Operands that follow each other wait together.
  | .many, .operands words => .ok { d with waiting := .operands (words ++ [word]) }
  | .none, _ => .error (.unknownArgument word)
  | kind, _ =>
    if kind = .one ∧ d.taken then .error (.unknownArgument word)
    else
      match d.settle c with
      | .error e => .error e
      | .ok d => .ok { d with taken := true, waiting := .operands [word] }

/-- Take a word before the end of the options. -/
def takeWord (c : Subcommand) (word : String) (d : Draft) : Except UsageError Draft :=
  match Word.ofText word with
  | .long name value =>
    match longFlag? c.flags name with
    | none => .error (.unknownArgument word)
    | some flag =>
      if value.isSome && !flag.takesValue then .error .surplusValue else d.takeFlag c flag value
  | .letters cs => d.takeLetters c word cs
  | .plain word =>
    -- An option without a value takes the next plain word as its value.
    match d.waiting with
    | .value flag none => .ok { d with waiting := .value flag (some word) }
    | _ => d.takeOperand c word

/-- Take the words behind a sub-command. -/
def takeWords (c : Subcommand) (d : Draft) : List String → Except UsageError Draft
  | [] => d.settle c
  | word :: words =>
    if word = endOfOptions then takeRest c d words
    else
      match d.takeWord c word with
      | .error e => .error e
      | .ok d => takeWords c d words
where
  /-- Take the words behind the end of the options. -/
  takeRest (c : Subcommand) (d : Draft) : List String → Except UsageError Draft
    | [] => d.settle c
    | word :: words =>
      match d.takeOperand c word with
      | .error e => .error e
      | .ok d => takeRest c d words

/-- The value of an option. -/
def value? (d : Draft) (flag : Flag) : Option String := d.values.lookup flag

/-- What is asked of the seed image. -/
def seedOptions (d : Draft) : SeedOptions :=
  { size := d.value? .size, noSeed := d.given.contains .noSeed }

/-- The request of a sub-command. -/
def request (c : Subcommand) (d : Draft) : Except UsageError Request :=
  let output := (d.value? .output).map PathName.mk
  match c, d.operands with
  | .render, expr :: _ =>
    let scale := ((d.value? .scale).bind fun s => readFactor s.toList).getD 1
    .ok (.render expr output d.seedOptions scale)
  | .check, expr :: _ => .ok (.check expr (d.given.contains .json))
  | .repl, _ => .ok (.repl d.seedOptions)
  | .batch, paths => .ok (.batch (paths.map PathName.mk) output)
  | .list, _ => .ok (.list (d.value? .kind))
  | .completions, name :: _ =>
    match Shell.ofName? name with
    | some shell => .ok (.completions shell)
    | none => .error (.unknownShell name)
  | .render, [] | .check, [] | .completions, [] => .error .missingOperand

end Draft

/-! ## Before the sub-command -/

/-- Read the words behind a sub-command. Asking for more log output there replaces what was asked
    before it. -/
def readSubcommand (verbosity : Nat) (c : Subcommand) (words : List String) :
    Except UsageError CommandLine :=
  match Draft.start.takeWords c words with
  | .error e => .error e
  | .ok d =>
    (d.request c).map fun request =>
      { verbosity := if d.verbosity = 0 then verbosity else d.verbosity, request }

/-- What asking for help on the given words leads to: help, if they name a sub-command. -/
def readHelp : List String → UsageError
  | [] => .help
  | [word] =>
    if (Subcommand.ofName? word).isSome || word = helpWord then .help else .unknownSubcommand word
  | word :: next :: _ =>
    if (Subcommand.ofName? word).isSome || word = helpWord then .unknownSubcommand next
    else .unknownSubcommand word

/-- A word where a sub-command has to be. Behind the end of the options no sub-command is looked
    for. -/
def strayWord (stopped : Bool) (word : String) : UsageError :=
  if stopped && ((Subcommand.ofName? word).isSome || word = helpWord) then .unknownArgument word
  else .unknownSubcommand word

/-- Take an option before the sub-command, none of which has a value. -/
def takeRootFlag (verbosity : Nat) (flag : Flag) : Except UsageError Nat :=
  (Draft.giveFlag flag { Draft.start with verbosity }).map Draft.verbosity

/-- Take the letters behind a dash before the sub-command. -/
def takeRootLetters (word : String) (verbosity : Nat) : List Char → Except UsageError Nat
  | [] => .ok verbosity
  | l :: ls =>
    match letterFlag? rootFlags l with
    | none => .error (.unknownArgument word)
    | some flag =>
      match takeRootFlag verbosity flag with
      | .error e => .error e
      | .ok verbosity => takeRootLetters word verbosity ls

/-- Read the words from the first one on. `bare` says that there was none before, and the count is
    how often more log output was asked for. -/
def readRoot (bare : Bool) (verbosity : Nat) : List String → Except UsageError CommandLine
  | [] => .error (if bare then .nothingAsked else .missingSubcommand)
  | word :: words =>
    if word = helpWord then .error (readHelp words)
    else if word = endOfOptions then
      match words with
      | [] => .error (if bare then .nothingAsked else .missingSubcommand)
      | stray :: _ => .error (strayWord true stray)
    else
      match Subcommand.ofName? word with
      | some c => readSubcommand verbosity c words
      | none =>
        match Word.ofText word with
        | .long name value =>
          match longFlag? rootFlags name with
          | none => .error (.unknownArgument word)
          | some flag =>
            if value.isSome then .error .surplusValue
            else
              match takeRootFlag verbosity flag with
              | .error e => .error e
              | .ok verbosity => readRoot false verbosity words
        | .letters cs =>
          match takeRootLetters word verbosity cs with
          | .error e => .error e
          | .ok verbosity => readRoot false verbosity words
        | .plain _ => .error (strayWord false word)

/-- Read the words of a command line, the name of the program left out. -/
def read (words : List String) : Except UsageError CommandLine := readRoot true 0 words

end Tapestry.CommandLine

import Tapestry.Program.Render

/-!
# Evaluating line by line

Each line of the input is an expression of its own, evaluated in a fresh context; only the files
carry over. A failure is reported and the next line is read.
-/

namespace Tapestry.Program

/-- What the input gave when a line was asked for. The end of the input is the end of the list of
    answers. -/
inductive Answer where
  | line (text : String)
  | notText
  deriving DecidableEq, Repr

/-- What a line asks for. -/
inductive Wish where
  | nothing
  | leave
  | evaluate (expr : String)
  deriving DecidableEq, Repr

/-- What a line asks for, white space at its ends apart. -/
def Wish.ofLine (line : String) : Wish :=
  match Text.trimmed line with
  | "" => nothing
  | "exit" | "quit" | ":q" => leave
  | expr => evaluate expr

/-- The text before every line. -/
def prompt : String := "weave> "

/-- The name under which the standard input is reported. -/
def inputName : PathName := ⟨"<stdin>"⟩

/-- Evaluate one expression and show the size of its image or the report of its failure. -/
def evaluateLine (terminal : Terminal) (seed : Option Image) (expr : String) : ProgramM Unit := do
  match ← attempt .builtins expr seed with
  | .ok image => say terminal .status "Ok" image.size.render
  | .error e => report e

/-- Act on what the input gave, and say whether to go on. -/
def answer (terminal : Terminal) (seed : Option Image) : Answer → ProgramM Bool
  | .notText => throw (.unreadable .terminal inputName .notText)
  | .line text =>
    match Wish.ofLine text with
    | .nothing => pure true
    | .leave => pure false
    | .evaluate expr => do
      evaluateLine terminal seed expr
      pure true

/-- Ask for lines and act on them until there are no more or one of them asks to leave. -/
def converse (terminal : Terminal) (seed : Option Image) : List Answer → ProgramM Unit
  | [] => print prompt
  | a :: as => do
    print prompt
    if ← answer terminal seed a then converse terminal seed as

/-- Greet the user and answer the seed image of all lines. -/
def greet (terminal : Terminal) (options : SeedOptions) : ProgramM (Option Image) := do
  let m ← seededManifest options
  say terminal .info "Ready" (terminal.paint .dim "type an expression, or 'exit' to quit")
  pure m.seedImage

/-- Evaluate the lines of the input. -/
def repl (terminal : Terminal) (options : SeedOptions) (input : List Answer) : ProgramM Unit := do
  let seed ← greet terminal options
  converse terminal seed input

/-! ## Lines of bytes -/

/-- The lines of some bytes, each with the line feed that ends it; what follows the last line feed
    is a line when it is not empty. -/
def splitLines : List UInt8 → List (List UInt8)
  | [] => []
  | b :: bs =>
    if b = 10 then [b] :: splitLines bs
    else
      match splitLines bs with
      | [] => [[b]]
      | l :: ls => (b :: l) :: ls

/-- What the input gives for one line of bytes. -/
def Answer.ofBytes (line : List UInt8) : Answer :=
  match String.fromUTF8? ⟨line.toArray⟩ with
  | some text => .line text
  | none => .notText

/-- What the input gives when it holds the given bytes. -/
def Answer.all (input : ByteArray) : List Answer := (splitLines input.toList).map Answer.ofBytes

end Tapestry.Program

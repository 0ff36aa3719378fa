import Tapestry.Expr
import Tapestry.Registry

/-!
# Evaluation

`Expr.evaluate` threads an image through an expression. A command is looked up before its arguments
are evaluated; an expression among the arguments is evaluated on the input of the command, and its
image is passed on as a handle. Both operands of an infix operator are evaluated before the operator
is looked up; the left image becomes the input of its command and the right one a handle.

A `Context` is the state of an evaluation: the handles, the files, and the invocations so far. It is
kept when an evaluation fails.
-/

namespace Tapestry

/-- One call of a handler. -/
structure Invocation where
  name : String
  args : List String
  input : Option Image
  deriving DecidableEq

/-- The state of an evaluation. -/
structure Context where
  handles : HandleTable
  files : Workspace
  invocations : List Invocation
  deriving DecidableEq

/-- The state before an evaluation. -/
def Context.fresh (files : Workspace) : Context := ⟨.empty, files, []⟩

/-- A computation on a context. -/
abbrev EvalM := EStateM EvalError Context

/-- Put an image among the handles. -/
def registerImage (image : Image) : EvalM String := fun c =>
  let (handle, handles) := c.handles.register image
  .ok handle { c with handles }

/-- Call a handler under a name. The invocation is recorded, and an error without a command name
    gets this one. -/
def invoke (name : String) (handler : Handler) (args : List String) (input : Option Image) :
    EvalM Image := fun c =>
  let c : Context := { c with invocations := c.invocations ++ [⟨name, args, input⟩] }
  match handler ⟨args, input, c.handles⟩ c.files with
  | .ok image files => .ok image { c with files }
  | .error e files => .error (e.inCommand name) { c with files }

/-- The handler with a name. -/
def lookupCommand (registry : Registry) (name : String) : EvalM Handler :=
  match registry.get? name with
  | some handler => pure handler
  | none => throw (.unknownCommand name)

/-- The command and the handler behind an operator symbol. -/
def lookupOperator (registry : Registry) (symbol : String) : EvalM (String × Handler) :=
  match Operator.commandOf? symbol with
  | none => throw (.unknownOperator symbol)
  | some command =>
    match registry.get? command with
    | some handler => pure (command, handler)
    | none => throw (.operatorNotImplemented symbol command)

mutual

/-- The image of an expression, given the image that comes in. -/
def Expr.evaluate (registry : Registry) : Expr → Option Image → EvalM Image
  | .command name args, input => do
    let handler ← lookupCommand registry name
    let texts ← Arg.resolveList registry args input
    invoke name handler texts input
  | .literal value, input => do
    let handler ← lookupCommand registry value
    invoke value handler [] input
  | .pipeline stages, input => Expr.evaluateStages registry stages input
  | .group inner, input => inner.evaluate registry input
  | .binary left symbol right, input => do
    let leftImage ← left.evaluate registry input
    let rightImage ← right.evaluate registry input
    -- The operator is looked up behind both operands, so an unknown sign is found only then.
    let (command, handler) ← lookupOperator registry symbol
    -- A handler has one image as its input and reads the other one through a handle.
    let handle ← registerImage rightImage
    invoke command handler [handle] (some leftImage)

/-- The image of the last stage, where each stage gets the image of the one before. -/
def Expr.evaluateStages (registry : Registry) : List Expr → Option Image → EvalM Image
  | [], some image => pure image
  | [], none => throw .noInput
  | e :: es, input => do
    let image ← e.evaluate registry input
    Expr.evaluateStages registry es (some image)

/-- The text that stands for an argument. -/
def Arg.resolve (registry : Registry) : Arg → Option Image → EvalM String
  | .literal value, _ => pure value
  | .keyed key value, input => do
    let text ← value.resolve registry input
    pure (key ++ "=" ++ text)
  | .nested e, input => do
    let image ← e.evaluate registry input
    registerImage image

/-- The texts that stand for arguments, evaluated from left to right. -/
def Arg.resolveList (registry : Registry) : List Arg → Option Image → EvalM (List String)
  | [], _ => pure []
  | a :: as, input => do
    let text ← a.resolve registry input
    let texts ← Arg.resolveList registry as input
    pure (text :: texts)

end

/-- The names in an expression that a registry cannot look up, each once, in the order of their
    first occurrence. -/
def unknownCommands (registry : Registry) (e : Expr) : List String :=
  (e.commandNames.filter fun name => !registry.contains name).foldl
    (fun seen name => if seen.contains name then seen else seen ++ [name]) []

/-- The command of one stage of a flat pipeline: a name and literal arguments. -/
def flatStage? : List String → Option Expr
  | [] => none
  | name :: args => some (.command name (args.map .literal))

/-- The pipeline of stages that were already split into words; `none` when all of them are empty. -/
def flatPipeline (stages : List (List String)) : Option Expr :=
  match stages.filterMap flatStage? with
  | [] => none
  | e :: es => some (es.foldl Expr.pipe e)

end Tapestry

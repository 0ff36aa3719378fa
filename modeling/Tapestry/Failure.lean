import Tapestry.EvalError
import Tapestry.ParseError
import Tapestry.Workspace

/-!
# Failures

Everything for which a run of the program gives no result: a text that is no expression, an
expression without an image, a file that cannot be read, a setting that cannot be used, and scripts
that failed.
-/

namespace Tapestry

/-- What a file or stream that could not be read was read for. -/
inductive Source where
  | manifest
  | script
  | terminal
  deriving DecidableEq, Repr, Inhabited

/-- The words before the reason for which a source could not be read. -/
def Source.lead : Source → String
  | manifest => "Failed to read manifest: "
  | script => "Failed to read script: "
  | terminal => ""

/-- What is wrong with the settings of a run. -/
inductive ConfigFault where
  | invalidManifest
  | emptySeed (width height : Nat)
  | largeSeed (width height : Nat)
  | invalidSizeOption (value : String)
  deriving DecidableEq, Repr, Inhabited

namespace ConfigFault

/-- The wording of a fault. -/
def message : ConfigFault → String
  | invalidManifest => "Invalid manifest"
  | emptySeed w h => s!"Seed size must be positive, got {w}x{h}"
  | largeSeed w h => s!"Seed size too large: {w}x{h}"
  | invalidSizeOption value => s!"Invalid --size: {value}"

/-- Advice on a fault. -/
def help : ConfigFault → String
  | invalidManifest => "Check weave.yaml syntax"
  | emptySeed _ _ => "Set width and height to at least 1"
  | largeSeed _ _ => s!"Keep width and height at or below {maxSide}"
  | invalidSizeOption _ => "Use WxH, e.g. --size 64x64"

end ConfigFault

/-- Why a run gave no result. -/
inductive Failure where
  | parse (error : ParseError)
  | evaluation (error : EvalError)
  | unreadable (source : Source) (path : PathName) (error : FileError)
  | config (fault : ConfigFault)
  | batch (failed total : Nat)
  deriving DecidableEq, Repr

namespace Failure

/-- A number of scripts in words. -/
def scripts (n : Nat) : String := Text.plural n "script" "scripts"

/-- The wording of a failure. -/
def message : Failure → String
  | parse e => e.message
  | evaluation e => e.message
  | unreadable source path e => s!"IO error with {path.text}: {source.lead}{e.message}"
  | config fault => s!"Config error: {fault.message}"
  | batch failed total => s!"Build error: {failed} of {scripts total} failed"

/-- The code that names the kind of a failure. -/
def code : Failure → String
  | parse e => e.code
  | evaluation e => e.code
  | unreadable _ _ _ => "weave::io"
  | config _ => "weave::config"
  | batch _ _ => "weave::build"

/-- Advice on a failure. -/
def help : Failure → Option String
  | parse e => e.help
  | evaluation e => e.help
  | unreadable _ _ _ => none
  | config fault => some fault.help
  | batch _ _ => some "Run with -v for evaluation logs"

/-- The report of a failure. -/
def diagnostic : Failure → Diagnostic
  | parse e => e.diagnostic
  | evaluation e => e.diagnostic
  | e => { message := e.message, code := e.code, help := e.help, labels := none }

end Failure

end Tapestry

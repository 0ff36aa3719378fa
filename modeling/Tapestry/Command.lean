import Tapestry.Command.Compositor
import Tapestry.Command.Save

/-!
# The built-in commands

One table holds the name, the kind, the usage and the handler of every built-in command; the
registry that expressions are normally evaluated with is made from it.
-/

namespace Tapestry

/-- What a command does, for the list of commands. -/
inductive CommandKind where
  | generator
  | passthrough
  | transform
  | compositor
  | operator
  | sink
  deriving DecidableEq, Repr, Inhabited

namespace CommandKind

/-- All kinds, in the order in which commands are listed. -/
def all : List CommandKind := [generator, passthrough, transform, compositor, operator, sink]

/-- The name of a kind. -/
def name : CommandKind → String
  | generator => "generator"
  | passthrough => "passthrough"
  | transform => "transform"
  | compositor => "compositor"
  | operator => "operator"
  | sink => "sink"

end CommandKind

/-- A built-in command. -/
structure Builtin where
  name : String
  kind : CommandKind
  synopsis : String
  handler : Handler

namespace Builtin

open Command in
/-- All built-in commands. -/
def all : List Builtin := [
  ⟨"blank", .generator, "blank [size=WxH]", generator readBlank⟩,
  ⟨"fill", .generator, "fill COLOUR [size=WxH]", generator readFill⟩,
  ⟨"checkers", .generator, "checkers A B [cell=N] [size=WxH]", generator readCheckers⟩,
  ⟨"stripes", .generator, "stripes A B [width=N] [vertical] [size=WxH]", generator readStripes⟩,
  ⟨"circle", .generator, "circle FG BG [size=WxH]", generator readCircle⟩,
  ⟨"gradient", .generator, "gradient A B [vertical] [size=WxH]", generator readGradient⟩,
  ⟨"null", .passthrough, "null", passOn⟩,
  ⟨"zoom", .transform, "zoom N", geometric readZoom⟩,
  ⟨"mirror", .transform, "mirror [vertical]", geometric readMirror⟩,
  ⟨"rotate", .transform, "rotate 90|180|270", geometric readRotate⟩,
  ⟨"invert", .transform, "invert", recolour readInvert⟩,
  ⟨"hue", .transform, "hue DEGREES", recolour readHue⟩,
  ⟨"tile", .transform, "tile N", geometric readTile⟩,
  ⟨"join", .compositor, "join overlay|under|replace (IMG) [mask=(IMG)]", join⟩,
  ⟨"mask", .compositor, "mask (IMG)", mask⟩,
  ⟨"blend", .compositor, "blend (IMG) [amount=F]", blend⟩,
  ⟨"op_xor", .operator, "A ^ B", combine .xor⟩,
  ⟨"op_add", .operator, "A + B", combine .add⟩,
  ⟨"op_sub", .operator, "A - B", combine .sub⟩,
  ⟨"op_mul", .operator, "A * B", combine .mul⟩,
  ⟨"op_div", .operator, "A / B", combine .div⟩,
  ⟨"op_mod", .operator, "A % B", combine .mod⟩,
  ⟨"save", .sink, "save PATH [scale=N] (PATH without =)", save none⟩]

/-- The built-in command with a name. -/
def ofName? (name : String) : Option Builtin := all.find? fun b => b.name == name

end Builtin

/-- The registry of the built-in commands. -/
def Registry.builtins : Registry := .ofList (Builtin.all.map fun b => (b.name, b.handler))

end Tapestry

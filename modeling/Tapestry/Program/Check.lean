import Tapestry.Command
import Tapestry.Expr.Json
import Tapestry.Expr.Render
import Tapestry.Program.Transcript

/-!
# Checking an expression

Read an expression without evaluating it, write its tree, and name the commands that do not exist.
-/

namespace Tapestry.Program

/-- Write the tree of an expression as text or as JSON, and warn of unknown commands. -/
def check (terminal : Terminal) (text : String) (json : Bool) : ProgramM Unit := do
  let expr ← ofExcept ((parse text).mapError .parse)
  print ((if json then expr.toJson.pretty else expr.render) ++ "\n")
  match unknownCommands .builtins expr with
  | [] => say terminal .status "Checked" (terminal.paint .dim "expression is well formed")
  | names => names.forM fun name => say terminal .warning "Unknown" s!"command '{name}'"

end Tapestry.Program

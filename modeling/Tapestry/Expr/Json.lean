import Tapestry.Expr
import Tapestry.Json

/-!
# Trees as JSON

Every node of a tree is an object whose first member names its kind, `node` for expressions and
`arg` for arguments; the parts follow in a fixed order.
-/

namespace Tapestry

mutual

/-- An expression as a JSON value. -/
def Expr.toJson : Expr → Json
  | .command name args =>
    -- The tag of the constructor comes first, then its fields.
    .object [("node", .string "command"), ("name", .string name),
      ("args", .array (Arg.toJsonList args))]
  | .pipeline stages =>
    .object [("node", .string "pipeline"), ("nodes", .array (Expr.toJsonList stages))]
  | .binary left symbol right =>
    .object [("node", .string "binary"), ("left", left.toJson), ("op", .string symbol),
      ("right", right.toJson)]
  | .group inner => .object [("node", .string "group"), ("inner", inner.toJson)]
  | .literal value => .object [("node", .string "literal"), ("value", .string value)]

/-- Several expressions as JSON values. -/
def Expr.toJsonList : List Expr → List Json
  | [] => []
  | e :: es => e.toJson :: Expr.toJsonList es

/-- An argument as a JSON value. -/
def Arg.toJson : Arg → Json
  | .literal value => .object [("arg", .string "literal"), ("value", .string value)]
  | .keyed key value =>
    .object [("arg", .string "key_value"), ("key", .string key), ("value", value.toJson)]
  | .nested e => .object [("arg", .string "sub_expression"), ("node", e.toJson)]

/-- Several arguments as JSON values. -/
def Arg.toJsonList : List Arg → List Json
  | [] => []
  | a :: as => a.toJson :: Arg.toJsonList as

end

end Tapestry

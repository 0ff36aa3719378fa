import Tapestry.Image

/-!
# Infix operators

Six operators combine two images. Each has a symbol in expressions and a command under which a
registry holds it, and each of the built-in ones is a function on channel values.
-/

namespace Tapestry

/-- The operators that combine two images. -/
inductive Operator where
  | xor
  | add
  | sub
  | mul
  | div
  | mod
  deriving DecidableEq, Repr, Inhabited

namespace Operator

/-- All operators, in the order of the table of commands. -/
def all : List Operator := [xor, add, sub, mul, div, mod]

/-- The symbol of an operator. -/
def symbol : Operator → String
  | xor => "^"
  | add => "+"
  | sub => "-"
  | mul => "*"
  | div => "/"
  | mod => "%"

/-- The name of the command behind an operator. -/
def command : Operator → String
  | xor => "op_xor"
  | add => "op_add"
  | sub => "op_sub"
  | mul => "op_mul"
  | div => "op_div"
  | mod => "op_mod"

/-- The operator with a symbol. -/
def ofSymbol? (s : String) : Option Operator := all.find? fun o => o.symbol == s

/-- The name of the command behind a symbol. -/
def commandOf? (s : String) : Option String := (ofSymbol? s).map command

/-- What an operator does to two channel values. Sums and differences saturate, a product is scaled
    by 255 and rounded, and dividing by zero gives zero. -/
def channel : Operator → UInt8 → UInt8 → UInt8
  | xor, a, b => a ^^^ b
  | add, a, b => UInt8.ofNat (min 255 (a.toNat + b.toNat))
  | sub, a, b => UInt8.ofNat (a.toNat - b.toNat)
  | mul, a, b => UInt8.ofNat ((a.toNat * b.toNat + 127) / 255)
  | div, a, b => if b = 0 then 0 else UInt8.ofNat (min 255 (a.toNat * 255 / b.toNat))
  | mod, a, b => if b = 0 then 0 else a % b

/-- What an operator does to two colours. The result is as opaque as the more opaque of the two. -/
def colour (o : Operator) (a b : Colour) : Colour :=
  { red := o.channel a.red b.red
    green := o.channel a.green b.green
    blue := o.channel a.blue b.blue
    alpha := max a.alpha b.alpha }

/-- Every operator is found again from its symbol. -/
theorem ofSymbol?_symbol (o : Operator) : ofSymbol? o.symbol = some o := by
  cases o <;> decide

/-- No two operators share a symbol. -/
theorem symbol_injective {o p : Operator} (h : o.symbol = p.symbol) : o = p := by
  have := ofSymbol?_symbol o
  rw [h, ofSymbol?_symbol] at this
  exact (Option.some.inj this).symm

/-- A symbol belongs to at most one operator, which writes it back. -/
theorem ofSymbol?_eq_some {s : String} {o : Operator} : ofSymbol? s = some o ↔ s = o.symbol := by
  constructor
  · intro h
    have := List.find?_some h
    simpa using (beq_iff_eq.1 this).symm
  · rintro rfl
    exact ofSymbol?_symbol o

end Operator

end Tapestry

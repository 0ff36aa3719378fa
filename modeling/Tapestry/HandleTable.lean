import Tapestry.Entries
import Tapestry.Image
import Tapestry.Text.Basic
import Tapestry.Text.Numeral

/-!
# Handles

While a tree is evaluated, the images of its sub-expressions are put into a table and passed on as
texts: `@img:0`, `@img:1` and so on, in the order in which they were made. The table holds the
images by handle, and the number that the next handle gets.

* `handleName_injective`  different numbers have different handles
* `lookup_register`       registering an image binds one handle and leaves the others alone
-/

namespace Tapestry

/-- What every handle starts with. -/
def handlePrefix : List Char := ['@', 'i', 'm', 'g', ':']

/-- The `n`-th handle. -/
def handleName (n : Nat) : String := String.ofList (handlePrefix ++ Nat.toDigits 10 n)

/-- Whether a text has the form of a handle: the prefix and one or more ASCII digits. -/
def isHandle (s : String) : Bool :=
  match Text.dropStart? handlePrefix s.toList with
  | none => false
  | some digits => digits ≠ [] && digits.all Char.isDigit

/-- Images by handle, and the number of the next handle. -/
structure HandleTable where
  entries : List (String × Image)
  counter : Nat
  deriving DecidableEq

namespace HandleTable

/-- A table without images. -/
def empty : HandleTable := ⟨[], 0⟩

/-- The handles of a table. -/
def keys (t : HandleTable) : List String := t.entries.map Prod.fst

/-- The number of handles. -/
def count (t : HandleTable) : Nat := t.entries.length

/-- Bind an image to a handle, in place of the one that was bound to it. -/
def insert (t : HandleTable) (handle : String) (image : Image) : HandleTable :=
  { t with entries := (handle, image) :: t.entries.filter (·.1 ≠ handle) }

/-- Add an image under the next handle; the first component is this handle. -/
def register (t : HandleTable) (image : Image) : String × HandleTable :=
  let handle := handleName t.counter
  (handle, { t.insert handle image with counter := t.counter + 1 })

/-- The image of a handle. Only a text with the prefix of a handle can have one. -/
def lookup (t : HandleTable) (s : String) : Option Image :=
  if handlePrefix.isPrefixOf s.toList then t.entries.lookup s else none

/-- The handle that an argument carries: what follows its first equals sign, or all of it. -/
def handleOf (argument : String) : String :=
  match Text.splitOnce (· == '=') argument.toList with
  | some (_, value) => String.ofList value
  | none => argument

/-- The image of an argument, be it a handle or a keyword with a handle. -/
def resolve (t : HandleTable) (argument : String) : Except EvalError Image :=
  match t.lookup (handleOf argument) with
  | some image => .ok image
  | none => .error (.unknownHandle "" (handleOf argument))

end HandleTable

/-- A handle is its prefix and a decimal number. -/
theorem handleName_eq (n : Nat) : handleName n = "@img:" ++ toString n := by
  rw [handleName, String.ofList_append]
  rfl

/-- Different numbers have different handles. -/
theorem handleName_injective {m n : Nat} (h : handleName m = handleName n) : m = n := by
  have hdigits : Nat.toDigits 10 m = Nat.toDigits 10 n :=
    List.append_cancel_left (String.ofList_injective h)
  have hm := Text.readNat_toDigits m
  rw [hdigits, Text.readNat_toDigits] at hm
  exact (Option.some.inj hm).symm

/-- Every handle starts like a handle. -/
theorem isPrefixOf_handleName (n : Nat) :
    handlePrefix.isPrefixOf (handleName n).toList = true := by
  rw [handleName, String.toList_ofList, List.isPrefixOf_iff_prefix]
  exact List.prefix_append _ _

namespace HandleTable

/-- Registering an image binds its handle to it and changes no other. -/
theorem lookup_register (t : HandleTable) (image : Image) (s : String) :
    (t.register image).2.lookup s =
      if s = handleName t.counter then some image else t.lookup s := by
  rw [lookup, lookup, register, insert, lookup_cons_filter_ne]
  by_cases hs : s = handleName t.counter
  · rw [hs, if_pos (isPrefixOf_handleName _), if_pos rfl, if_pos rfl]
  · rw [if_neg hs, if_neg hs]

end HandleTable

end Tapestry

import Tapestry.Manifest

/-!
# Exclusion patterns

A pattern is compared with the text of a path name. Four shapes have a meaning: everything in a
directory, as `dir/*` or `**/dir/*`; what begins with a name at any depth, as `**/name`; what ends
in a given way, as `*.ext`; and any other pattern, which has to occur somewhere in the text.

`Exclusion` is a pattern taken apart, and `Exclusion.holds` decides by its shape alone.
-/

namespace Tapestry

/-- A pattern by its shape. -/
inductive Exclusion where
  | inside (directory : List Char)
  | under (name : List Char)
  | ending (suffix : List Char)
  | containing (part : List Char)
  deriving DecidableEq, Repr

namespace Exclusion

/-- The shape of a pattern. -/
def ofText (pattern : String) : Exclusion :=
  let cs := pattern.toList
  match Text.dropStart? ['*', '*', '/'] cs with
  | some name =>
    match Text.dropEnd? ['/', '*'] name with
    | some directory => .inside directory
    | none => .under name
  | none =>
    -- A star in front, and no slash, asks how the path name ends.
    if cs.head? = some '*' ∧ '/' ∉ cs then .ending cs.tail
    else
      match Text.dropEnd? ['/', '*'] cs with
      | some directory => .inside directory
      | none => .containing cs

/-- Whether a pattern matches the text of a path name. -/
def holds (path : List Char) : Exclusion → Bool
  | inside directory =>
    (directory ++ ['/']).isPrefixOf path || Text.occursIn ('/' :: directory ++ ['/']) path
  | under name => name.isSuffixOf path || Text.occursIn ('/' :: name) path
  | ending suffix => suffix.isSuffixOf path
  | containing part => Text.occursIn part path

end Exclusion

/-- Whether a manifest leaves a path name out. -/
def Manifest.isExcluded (m : Manifest) (p : PathName) : Bool :=
  m.excludes.any fun pattern => (Exclusion.ofText pattern).holds p.text.toList

end Tapestry

/-!
# Diagnostics

What every error of the library reports, whatever its cause: a message, a code that names the kind
of error, advice when there is some, and the places of the source text that it is about.
-/

namespace Tapestry

/-- A stretch of source text, in bytes, with a remark. -/
structure Label where
  text : String
  offset : Nat
  length : Nat
  deriving DecidableEq, Repr, Inhabited

/-- A report of an error. `labels` is `none` for the kinds of error that never point into a text. -/
structure Diagnostic where
  message : String
  code : String
  help : Option String
  labels : Option (List Label)
  deriving DecidableEq, Repr, Inhabited

/-- A label in words. -/
def Label.render (l : Label) : String := s!"  at byte {l.offset}, length {l.length}: {l.text}\n"

/-- The lines in which a report is shown. -/
def Diagnostic.render (d : Diagnostic) : String :=
  let help := match d.help with
    | some text => s!"  help: {text}\n"
    | none => ""
  s!"{d.code}\n  {d.message}\n" ++ String.join ((d.labels.getD []).map Label.render) ++ help

end Tapestry

import Tapestry.Exclusion

/-!
# Scripts

A script is a file with one expression, which may go on over several lines; lines that start with
two slashes are comments. Scripts are found below directories, in the order of their path names,
and each one once however many sources lead to it.
-/

namespace Tapestry

namespace Script

/-- The extension of the files that are scripts. -/
def fileExtension : String := "weave"

/-- Whether a path name is that of a script. -/
def isScript (p : PathName) : Bool := p.extension? = some fileExtension

/-- Whether a line is a comment. -/
def isComment (line : List Char) : Bool := ['/', '/'].isPrefixOf (Text.trimStart line)

/-- The text of a script without its comment lines. -/
def stripComments (s : String) : String :=
  String.ofList (List.intercalate ['\n'] ((Text.lines s.toList).filter fun l => !isComment l))

/-- Read a script. -/
def load (files : Workspace) (p : PathName) : Except Failure String :=
  match files.readText p with
  | .ok s => .ok (stripComments s)
  | .error e => .error (.unreadable .script p e)

/-- The scripts at or below a path name that a manifest does not leave out, in ascending order. -/
def scan (files : Workspace) (m : Manifest) (p : PathName) : List PathName :=
  ((files.filesBelow p).filter fun q => isScript q && !m.isExcluded q).mergeSort PathName.precedes

/-- Where a source of a manifest lies: below a base unless it is absolute, and without dots when it
    leads somewhere. -/
def locateSource (files : Workspace) (base : PathName) (source : String) : PathName :=
  let p := base.join ⟨source⟩
  (files.resolve? p).getD p

/-- Add path names that are not yet in a list. -/
def addNew (found new : List PathName) : List PathName :=
  new.foldl (fun found p => if found.any p.samePath then found else found ++ [p]) found

/-- The scripts of several sources, each once, in the order in which they were found first. -/
def scanSources (files : Workspace) (m : Manifest) (base : PathName) (sources : List String) :
    List PathName :=
  sources.foldl (fun found s => addNew found (scan files m (locateSource files base s))) []

/-- The scripts that path names lead to: a file if it is a script, and all scripts below anything
    else. A script that several of them lead to is listed as often. -/
def collect (files : Workspace) (m : Manifest) (paths : List PathName) : List PathName :=
  paths.flatMap fun p =>
    if files.isFile p then if isScript p then [p] else [] else scan files m p

end Script

end Tapestry

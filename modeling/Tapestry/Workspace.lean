import Tapestry.Entries
import Tapestry.Image
import Tapestry.PathName

/-!
# Workspaces

A workspace is a tree of directories and files with a working directory. Commands that read or write
files are functions of a workspace, so what they may have changed can be said by comparing two of
them.

A `Location` is a list of names from the root. The tree is a finite map from locations to entries,
and `Workspace.entryAt` is its view; the root is always a directory. A path name is turned into a
location by `Workspace.locate`, which follows it step by step: each step needs a directory to start
from, a dot stays and two dots go up.

* `entryAt_put`  storing an entry changes the view at one location
-/

namespace Tapestry

/-- Names from the root. -/
abbrev Location := List String

/-- The path name of a location. -/
def Location.path (l : Location) : PathName :=
  ⟨"/" ++ String.intercalate "/" l⟩

/-- What a file holds: bytes, or an image in a lossless format whose bytes are not looked at. -/
inductive FileContent where
  | bytes (data : ByteArray)
  | picture (image : Image)

instance : DecidableEq FileContent
  | .bytes a, .bytes b =>
    -- There may be more than one instance for byte arrays, so this one is named.
    match ByteArray.instDecidableEq a b with
    | isTrue h => isTrue (by rw [h])
    | isFalse h => isFalse fun e => h (by injection e)
  | .picture a, .picture b =>
    match decEq a b with
    | isTrue h => isTrue (by rw [h])
    | isFalse h => isFalse fun e => h (by injection e)
  | .bytes _, .picture _ | .picture _, .bytes _ => isFalse (by simp)

/-- What is stored at a location. -/
inductive Entry where
  | directory
  | file (content : FileContent)
  deriving DecidableEq

/-- Why a file or directory could not be read, made or written. -/
inductive FileError where
  | notFound
  | alreadyExists
  | notDirectory
  | isDirectory
  | nameTooLong
  | nulInName
  | notText
  deriving DecidableEq, Repr, Inhabited

/-- The wording of a file error. -/
def FileError.message : FileError → String
  | notFound => "No such file or directory (os error 2)"
  | alreadyExists => "File exists (os error 17)"
  | notDirectory => "Not a directory (os error 20)"
  | isDirectory => "Is a directory (os error 21)"
  | nameTooLong => "File name too long (os error 36)"
  | nulInName => "file name contained an unexpected NUL byte"
  | notText => "stream did not contain valid UTF-8"

/-- Directories and files below a root, and the working directory. -/
structure Workspace where
  entries : List (Location × Entry)
  current : Location
  deriving DecidableEq

namespace Workspace

/-- What is at a location. -/
def entryAt (w : Workspace) (l : Location) : Option Entry :=
  if l = [] then some .directory else w.entries.lookup l

/-- Store an entry in place of what was there. -/
def put (w : Workspace) (l : Location) (e : Entry) : Workspace :=
  { w with entries := (l, e) :: w.entries.filter (·.1 ≠ l) }

/-- Storing an entry changes what is at its location and nothing else. -/
theorem entryAt_put {w : Workspace} {l m : Location} {e : Entry} (hl : l ≠ []) :
    (w.put l e).entryAt m = if m = l then some e else w.entryAt m := by
  rw [entryAt, entryAt, put, lookup_cons_filter_ne]
  by_cases hm : m = l
  · rw [if_neg (hm ▸ hl), if_pos hm, if_pos hm]
  · rw [if_neg hm, if_neg hm]

@[simp] theorem current_put (w : Workspace) (l : Location) (e : Entry) :
    (w.put l e).current = w.current := rfl

/-! ## Following path names -/

/-- The largest number of bytes in the name of a file or directory. -/
def maxNameBytes : Nat := 255

/-- The largest number of bytes in a path name. -/
def maxPathBytes : Nat := 4095

/-- What keeps a path name from being followed at all, whatever the directories are. -/
def pathFault? (p : PathName) : Option FileError :=
  if p.text.toList.contains '\x00' then some .nulInName
  else if p.text = "" then some .notFound
  else if maxPathBytes < Text.utf8Length p.text.toList then some .nameTooLong
  else none

/-- Take one step from a location, which has to be a directory. -/
def step (w : Workspace) (l : Location) (segment : String) : Except FileError Location :=
  match w.entryAt l with
  | none => .error .notFound
  | some (.file _) => .error .notDirectory
  | some .directory =>
    if segment = "." then .ok l
    else if segment = ".." then .ok l.dropLast
    else if maxNameBytes < Text.utf8Length segment.toList then .error .nameTooLong
    else .ok (l ++ [segment])

/-- Take several steps. -/
def follow (w : Workspace) : Location → List String → Except FileError Location
  | l, [] => .ok l
  | l, s :: ss =>
    match w.step l s with
    | .error e => .error e
    | .ok m => w.follow m ss

/-- Where a path name starts. -/
def startOf (w : Workspace) (p : PathName) : Location := if p.isAbsolute then [] else w.current

/-- The location a path name leads to, which need not hold anything yet. -/
def locate (w : Workspace) (p : PathName) : Except FileError Location :=
  match pathFault? p with
  | some e => .error e
  | none => w.follow (w.startOf p) p.steps

/-- The location a path name leads to and what is there. -/
def find (w : Workspace) (p : PathName) : Except FileError (Location × Entry) :=
  match w.locate p with
  | .error e => .error e
  | .ok l =>
    match w.entryAt l with
    | none => .error .notFound
    | some e => .ok (l, e)

/-- Whether a path name leads to a file or a directory. -/
def pathExists (w : Workspace) (p : PathName) : Bool :=
  match w.find p with
  | .ok _ => true
  | .error _ => false

/-- Whether a path name leads to a file. -/
def isFile (w : Workspace) (p : PathName) : Bool :=
  match w.find p with
  | .ok (_, .file _) => true
  | _ => false

/-- Whether a path name leads to a directory. -/
def isDirectory (w : Workspace) (p : PathName) : Bool :=
  match w.find p with
  | .ok (_, .directory) => true
  | _ => false

/-- The absolute path name of what a path name leads to, without dots. -/
def resolve? (w : Workspace) (p : PathName) : Option PathName :=
  match w.find p with
  | .ok (l, _) => some (Location.path l)
  | .error _ => none

/-! ## Reading -/

/-- The text of a file. -/
def readText (w : Workspace) (p : PathName) : Except FileError String :=
  match w.find p with
  | .error e => .error e
  | .ok (_, .directory) => .error .isDirectory
  | .ok (_, .file (.picture _)) => .error .notText
  | .ok (_, .file (.bytes data)) =>
    match String.fromUTF8? data with
    | some s => .ok s
    | none => .error .notText

/-- The names that lead from one location to another one at or below it. -/
def below? : (l m : Location) → Option (List String)
  | [], m => some m
  | _ :: _, [] => none
  | a :: l, b :: m => if a = b then below? l m else none

/-- The path names of all files at or below a path name, each written as the path name followed by
    the names below it; none when it leads nowhere. -/
def filesBelow (w : Workspace) (p : PathName) : List PathName :=
  match w.find p with
  | .error _ => []
  | .ok (_, .file _) => [p]
  | .ok (l, .directory) =>
    w.entries.filterMap fun (m, e) =>
      match e, below? l m with
      | .file _, some names => some (names.foldl (fun q s => q.join ⟨s⟩) p)
      | _, _ => none

/-! ## Writing -/

/-- Make one directory, in a directory that exists. -/
def makeDirectory (w : Workspace) (p : PathName) : Except FileError Workspace :=
  match w.locate p with
  | .error e => .error e
  | .ok l =>
    match w.entryAt l with
    | some _ => .error .alreadyExists
    | none => .ok (w.put l .directory)

/-- A path name followed by its parents, the nearest first, down to but without the empty one. -/
def ancestry (p : PathName) : List PathName :=
  go p p.text.length
where
  /-- Each parent has a shorter text, so the length of the text bounds their number. -/
  go (p : PathName) : Nat → List PathName
    | 0 => []
    | n + 1 =>
      match p.parent? with
      | none => [p]
      | some q => if q.text = "" then [p] else p :: go q n

/-- Make the first of a list of directories, and the later ones before it where they are missing.
    The directories that were made stay when a later step fails. -/
def makeFirst (w : Workspace) : List PathName → Except FileError Unit × Workspace
  | [] => (.ok (), w)
  | p :: outer =>
    match w.makeDirectory p with
    | .ok w' => (.ok (), w')
    | .error .notFound =>
      -- A directory above is missing: make it first and try again.
      match w.makeFirst outer with
      | (.error e, w') => (.error e, w')
      | (.ok (), w') =>
        match w'.makeDirectory p with
        | .ok w'' => (.ok (), w'')
        | .error e => (if w'.isDirectory p then .ok () else .error e, w')
    -- What is in the way is fine if it is a directory already.
    | .error e => (if w.isDirectory p then .ok () else .error e, w)

/-- Make a directory and the directories above it, where they are missing. -/
def makeDirectories (w : Workspace) (p : PathName) : Except FileError Unit × Workspace :=
  if p.text = "" then (.ok (), w) else w.makeFirst (ancestry p)

/-- The location a file may be written to. -/
def locateTarget (w : Workspace) (p : PathName) : Except FileError Location :=
  match pathFault? p with
  | some e => .error e
  | none =>
    if p.endsWithSlash then
      -- What the slash follows is meant to be a directory; only the way to it is looked at.
      match w.follow (w.startOf p) (p.steps.dropLast.dropLast ++ ["."]) with
      | .error e => .error e
      | .ok _ => .error .isDirectory
    else
      match w.follow (w.startOf p) p.steps with
      | .error e => .error e
      | .ok l =>
        match w.entryAt l with
        | some .directory => .error .isDirectory
        | _ => .ok l

/-- Write a file in a directory that exists, over the file that was there. -/
def writeFile (w : Workspace) (p : PathName) (content : FileContent) : Except FileError Workspace :=
  match w.locateTarget p with
  | .error e => .error e
  | .ok l => .ok (w.put l (.file content))

end Workspace

end Tapestry

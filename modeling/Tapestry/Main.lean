import Tapestry.CommandLine.Help
import Tapestry.Image.Png
import Tapestry.Program

/-!
# The command line

Everything here moves data in and out: directories and files into a workspace, the input into lines,
and what a run leaves behind to the terminal and to the files. What the data means is decided by
`CommandLine.read` and `Program.perform`.
-/

namespace Tapestry.Main

/-! ## Files -/

/-- The names from the root to an absolute path. -/
def locationOf (path : String) : Location := (PathName.mk path).steps

/-- Add a directory and all directories above it. -/
def addDirectories (files : Workspace) (l : Location) : Workspace :=
  ((List.range l.length).map fun n => l.take (n + 1)).foldl
    (fun files m => files.put m .directory) files

/-- The deepest nesting of directories that is looked at. -/
def maxDepth : Nat := 64

/-- The content of a file as far as it is ever looked at: of files that are neither manifests nor
    scripts only the names matter. -/
def readContent (l : Location) (name : String) : IO ByteArray :=
  if name == Manifest.fileName.text || Script.isScript ⟨name⟩ then
    IO.FS.readBinFile (Location.path l).text
  else pure ByteArray.empty

/-- Add an entry at a location that holds none yet. -/
def addEntry (files : Workspace) (l : Location) (entry : Entry) : Workspace :=
  { files with entries := (l, entry) :: files.entries }

/-- Add everything below a directory of which nothing is known yet. -/
def addTree (files : Workspace) (l : Location) : Nat → IO Workspace
  | 0 => pure files
  | depth + 1 => do
    let directory ← IO.FS.realPath (Location.path l).text
    let mut files := files
    for entry in ← directory.readDir do
      let m := l ++ [entry.fileName]
      if ← entry.path.isDir then files ← addTree (addEntry files m .directory) m depth
      else files := addEntry files m (.file (.bytes (← readContent m entry.fileName)))
    pure files

/-- Add what a path leads to, if it leads anywhere and is not known yet. -/
def addPath (files : Workspace) (path : String) : IO Workspace := do
  try
    let found ← IO.FS.realPath path
    let l := locationOf found.toString
    if (files.entryAt l).isSome then return files
    let files := addDirectories files l.dropLast
    if ← found.isDir then addTree (files.put l .directory) l maxDepth
    else
      let name := l.getLast?.getD ""
      return addEntry files l (.file (.bytes (← readContent l name)))
  catch _ => return files

/-- The working directory, and what else a request leads to. -/
def load (request : Request) : IO Workspace := do
  let current := locationOf (← IO.currentDir).toString
  let start := addDirectories { entries := [], current } current
  let files ← addTree start current maxDepth
  match request with
  | .batch paths _ => paths.foldlM (fun files p => addPath files p.text) files
  | _ => pure files

/-- Write one entry that a run has left behind. -/
def store (l : Location) (entry : Entry) : IO Unit := do
  let path := (Location.path l).text
  match entry with
  | .directory => IO.FS.createDirAll path
  | .file (.bytes data) => IO.FS.writeBinFile path data
  | .file (.picture image) => IO.FS.writeBinFile path (Png.encode image)

/-- Write what a run has changed, directories before what is in them. -/
def storeChanges (before after : Workspace) : IO Unit :=
  after.entries.reverse.forM fun (l, entry) =>
    if before.entryAt l = some entry then pure () else store l entry

/-! ## The terminal -/

/-- Show a notice. -/
def showNotice : Notice → IO Unit
  | .line text => IO.eprintln text
  | .report diagnostic => IO.eprint diagnostic.render

/-- Hand over what a run has left behind so far, and start afresh with the files it has left. -/
def deliver (before : Workspace) (t : Transcript) : IO Transcript := do
  IO.print t.output
  (← IO.getStdout).flush
  t.notices.forM showNotice
  storeChanges before t.files
  pure { t with output := "", notices := [] }

/-- Report how a run ended, as an exit code. -/
def finish : Except Failure Unit → IO UInt32
  | .ok () => pure 0
  | .error e => do
    IO.eprint e.diagnostic.render
    pure 1

/-- Ask for one line; `none` at the end of the input. -/
def readAnswer : IO (Option Program.Answer) := do
  IO.print Program.prompt
  (← IO.getStdout).flush
  try
    let line ← (← IO.getStdin).getLine
    pure (if line.isEmpty then none else some (.line line))
  catch _ => pure (some .notText)

/-- Answer line after line, and hand over after each what it has left behind. -/
partial def converse (terminal : Terminal) (seed : Option Image) (t : Transcript) : IO UInt32 := do
  match ← readAnswer with
  | none => finish (.ok ())
  | some a =>
    match Program.answer terminal seed a t with
    | .error e after => do
      let _ ← deliver t.files after
      finish (.error e)
    | .ok goOn after => do
      let next ← deliver t.files after
      if goOn then converse terminal seed next else finish (.ok ())

/-- Carry out a request. -/
def perform (request : Request) : IO UInt32 := do
  let terminal : Terminal := ⟨← (← IO.getStderr).isTty⟩
  let files ← load request
  match request with
  | .repl options =>
    match Program.greet terminal options { files, output := "", notices := [] } with
    | .error e t => do
      let _ ← deliver files t
      finish (.error e)
    | .ok seed t => do converse terminal seed (← deliver files t)
  | _ =>
    let (result, t) := Program.run terminal [] files request
    let _ ← deliver files t
    finish result

end Tapestry.Main

/-- Read the command line and carry out what it asks for. -/
def main (args : List String) : IO UInt32 := do
  match Tapestry.CommandLine.read args with
  | .ok asked => Tapestry.Main.perform asked.request
  | .error e => do
    if e.exitCode = 0 then IO.print e.report else IO.eprint e.report
    return e.exitCode.toUInt32

import Retrofit.CommandLine.Reading
import Retrofit.Console.Commands

/-!
# The program

The files that a command can see are read from the disk, the command is carried out on them, and
what it has changed is written back. Directories are read as deep as paths can be. This program is
built without the network.
-/

namespace Retrofit

def diskNode? (path : String) : IO (Option Node) := do
  try
    let data ← ((← IO.currentDir) / path).metadata
    let time := (data.modified.sec * 1000000000 + data.modified.nsec.toNat).toNat
    if data.type == .dir then return some (.directory time)
    else return some (.file (← IO.FS.readBinFile path).toList time)
  catch _ => return none

def diskNames (path : String) : IO (List String) := do
  try
    return (← ((← IO.currentDir) / path).readDir).toList.map (·.fileName)
  catch _ => return []

/-- Adds what stands at an absolute path of the disk, and below it as deep as the fuel. -/
def addTree : Nat → Files → String → IO Files
  | fuel, files, path => do
    match ← diskNode? path with
    | none => return files
    | some node =>
      let files := files.put (Place.ofPath path) node
      match fuel, node with
      | fuel + 1, .directory _ =>
        (← diskNames path).foldlM
          (fun files name => addTree fuel files (Path.under path name)) files
      | _, _ => return files

/-- Adds the directories that a path leads through. -/
def addAbove (files : Files) (path : String) : IO Files :=
  let segments := Path.segments path
  (List.range segments.length).foldlM
    (fun files n => addTree 0 files ("/" ++ Path.ofSegments (segments.take n))) files

/-- Adds what stands at a path, which may begin at the current directory. -/
def addPath (depth : Nat) (files : Files) (path : String) : IO Files := do
  let path := Path.under files.current.path path
  addTree depth (← addAbove files path) path

/-- The files that a command can see. -/
def visibleFiles (i : Invocation) : IO Files := do
  let root := i.options.rootPath
  let names := [Manifest.fileName, ResolverConfig.fileName, FileSettings.fileName]
  let paths := names.map (Path.under root) ++ i.options.config.toList
  let start : Files := {
    nodes := []
    current := Place.ofPath (← IO.currentDir).toString
    rootTime := ((← diskNode? "/").map Node.modified).getD 0 }
  let files ← paths.foldlM (addPath 0) start
  match Settings.load files i.options with
  | .error _ => return files
  | .ok s =>
    let files ← match CatalogLocation.ofText s.options.patches root with
      | .file path => addPath 0 files path
      | .remote _ => pure files
    addPath 2048 files (Path.under root (ResolverConfig.load files root).installDirectory)

/-- Writes back what has changed. -/
def writeBack (before after : Files) : IO Unit := do
  for (path, node) in after.nodes do
    match node with
    | .directory _ => pure ()
    | .file content _ =>
      if Dictionary.get? path before.nodes ≠ some node then
        IO.FS.writeBinFile path (ByteArray.mk content.toArray)
  for (path, _) in before.nodes do
    if (Dictionary.get? path after.nodes).isNone then IO.FS.removeFile path

def Line.show : Line → IO Unit
  | .output text => IO.println text
  | .progress text => IO.eprintln text

/-- Carries out a command line; the result is the status with which the program ends. -/
def runProgram (arguments : List String) : IO UInt32 := do
  match Invocation.ofArguments (← IO.getEnv "ESX_PATCHES") arguments with
  | .error error =>
    if error.isAnswer then IO.println error.message else IO.eprintln error.message
    return if error.isAnswer then 0 else 2
  | .ok invocation =>
    let before ← visibleFiles invocation
    let now := (before.nodes.map fun (_, node) => node.modified).foldl max 0 + 1
    let result := invocation.run { manager := .unavailable, now } before
    writeBack before result.files
    result.lines.forM Line.show
    return if result.failed then 1 else 0

end Retrofit

def main (arguments : List String) : IO UInt32 :=
  Retrofit.runProgram arguments

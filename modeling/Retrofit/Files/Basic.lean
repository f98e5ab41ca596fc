import Retrofit.Dictionary
import Retrofit.Path.Basic
import Retrofit.Text.Utf8

/-!
# Files

**The store.** `Files` holds what stands at each place of a tree of directories: a file with its
bytes or a directory, each with the time of its last modification. Places are absolute paths in
normal form; the root is a directory without an entry.

**Times.** A file changes when it is written. A directory changes when an entry is added to it or
removed from it, and not when one of its files is written once more.

**Paths.** A path is followed segment by segment from the root or, if it is relative, from the
current directory. All but the last segment must name directories that exist, also where `..` takes
them back.

**Faults.** What can go wrong has the wording that the operating system gives it.
-/

namespace Retrofit

/-- What stands at a place. -/
inductive Node where
  | file (content : List UInt8) (modified : Nat)
  | directory (modified : Nat)
deriving DecidableEq, Repr

/-- The time of the last modification. -/
def Node.modified : Node → Nat
  | file _ t => t
  | directory t => t

/-! ## Faults -/

/-- Why a file cannot be used. -/
inductive FileFault where
  | notFound
  | isADirectory
  | notADirectory
  /-- The path holds a null character. -/
  | invalidInput
  /-- A name or the whole path is too long. -/
  | invalidName
  /-- The content is not UTF-8. -/
  | invalidData
deriving DecidableEq, Repr

def FileFault.message : FileFault → String
  | notFound => "No such file or directory (os error 2)"
  | isADirectory => "Is a directory (os error 21)"
  | notADirectory => "Not a directory (os error 20)"
  | invalidInput => "file name contained an unexpected NUL byte"
  | invalidName => "File name too long (os error 36)"
  | invalidData => "stream did not contain valid UTF-8"

/-! ## Places -/

/-- The segments of an absolute path in normal form. -/
abbrev Place := List Path.Segment

def Place.path (place : Place) : String :=
  "/" ++ Path.ofSegments place

/-- The place with an absolute path. -/
def Place.ofPath (path : String) : Place :=
  Path.steps path

/-- Files and directories by path, the directory at which relative paths begin, and the time of the
root. -/
structure Files where
  nodes : Dictionary Node
  current : Place
  rootTime : Nat := 0
deriving Repr

namespace Files

def node? (files : Files) (place : Place) : Option Node :=
  if place.isEmpty then some (.directory files.rootTime)
  else Dictionary.get? place.path files.nodes

/-- The place that a segment names in the directory at `place`. -/
def step (files : Files) (place : Place) (segment : Path.Segment) : Except FileFault Place :=
  match files.node? place with
  | none => .error .notFound
  | some (.file _ _) => .error .notADirectory
  | some (.directory _) =>
    if segment = [] ∨ segment = Path.here then .ok place
    else if segment = Path.above then .ok place.dropLast
    else if 255 < (String.ofList segment).utf8ByteSize then .error .invalidName
    else .ok (place ++ [segment])

/-- The place that a path names. Something need not stand there, but its directory must exist. -/
def locate (files : Files) (path : String) : Except FileFault Place :=
  if path.toList.contains '\x00' then .error .invalidInput
  else if path.isEmpty then .error .notFound
  else if 4095 < path.utf8ByteSize then .error .invalidName
  else
    let start := if Path.isAbsolute path then [] else files.current
    (Path.segments path).foldlM files.step start

def get (files : Files) (path : String) : Except FileFault Node := do
  match files.node? (← files.locate path) with
  | some node => .ok node
  | none => .error .notFound

/-- The time of the last modification. -/
def modified (files : Files) (path : String) : Except FileFault Nat := do
  return (← files.get path).modified

def isFile (files : Files) (path : String) : Bool :=
  match files.get path with
  | .ok (.file _ _) => true
  | _ => false

/-! ## Reading and writing -/

def read (files : Files) (path : String) : Except FileFault (List UInt8) := do
  match ← files.get path with
  | .file content _ => .ok content
  | .directory _ => .error .isADirectory

def readText (files : Files) (path : String) : Except FileFault String := do
  match Text.decode? (← files.read path) with
  | some text => .ok text
  | none => .error .invalidData

/-- The store in which something stands at a place. -/
def put (files : Files) (place : Place) (node : Node) : Files :=
  { files with nodes := Dictionary.insert place.path node files.nodes }

/-- The store in which the directory at a place has changed at the time `now`. -/
def touch (files : Files) (place : Place) (now : Nat) : Files :=
  if place.isEmpty then { files with rootTime := now }
  else match files.node? place with
    | some (.directory _) => files.put place (.directory now)
    | _ => files

/-- The store in which a file stands at a place from the time `now` on. A file that was not there
before is a new entry of its directory. -/
def putFile (files : Files) (place : Place) (content : List UInt8) (now : Nat) : Files :=
  let files := if (files.node? place).isNone then files.touch place.dropLast now else files
  files.put place (.file content now)

/-- The store in which a file has the given content from the time `now` on. -/
def write (files : Files) (path : String) (content : List UInt8) (now : Nat) :
    Except FileFault Files := do
  let place ← files.locate path
  match files.node? place with
  | some (.directory _) => .error .isADirectory
  | _ => .ok (files.putFile place content now)

/-! ## Places below a directory -/

/-- The rest of a path below the directory with a path. -/
def below? (directory path : String) : Option String :=
  (Text.strip? (directory ++ "/").toList path.toList).map String.ofList

/-- The path of an entry below a place, as it is written from a path on that leads to the place.
Only files are listed. -/
def listed? (path : String) (place : Place) : String × Node → Option String
  | (_, .directory _) => none
  | (p, .file _ _) => (below? (if place.isEmpty then "" else place.path) p).map (Path.under path)

/-- The paths of the files at or below a path, as they are written from that path on. -/
def filesAt (files : Files) (path : String) : List String :=
  match files.locate path with
  | .error _ => []
  | .ok place =>
    match files.node? place with
    | none => []
    | some (.file _ _) => [path]
    | some (.directory _) => files.nodes.filterMap (listed? path place)

/-- The store without what stands at a path or below it, from the time `now` on. -/
def remove (files : Files) (path : String) (now : Nat) : Files :=
  match files.locate path with
  | .error _ => files
  | .ok place =>
    let files := if (files.node? place).isSome then files.touch place.dropLast now else files
    { files with nodes := files.nodes.filter fun (p, _) =>
        p != place.path && (below? place.path p).isNone }

/-- The store without a file, from the time `now` on. -/
def removeFile (files : Files) (path : String) (now : Nat) : Except FileFault Files := do
  match ← files.get path with
  | .file _ _ => .ok (files.remove path now)
  | .directory _ => .error .isADirectory

end Files

end Retrofit

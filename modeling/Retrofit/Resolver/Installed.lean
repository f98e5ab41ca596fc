import Retrofit.Dependency.Shape
import Retrofit.Path.Basic
import Retrofit.Project.Manifest
import Retrofit.Resolver.Basic

/-!
# What is installed

**Metadata.** An installed package has a directory with its name in the install directory. Its
metadata stands there in `.bower.json`, or else in `bower.json`; a package with neither is missing.

**The tree.** Below the project stand the packages that its manifest declares, below each package
those that its own metadata declares. A package that stands above itself gets nothing below, so that
cycles end.

**The way down.** One set of names serves for the whole tree. A name goes in before what is below
its package is described, and comes out again afterwards.

**Depth.** On a way down every name but the last is new, and every name is declared by some
metadata. So the number of declared names bounds the depth.
-/

namespace Retrofit

namespace PackageMeta

/-- The name of the file that a package manager leaves in an installed package. -/
def installedName : String := ".bower.json"

/-- The metadata that a text holds. -/
def ofText (source : String) : Except Flaw PackageMeta :=
  Shape.ofText shape source

/-- The metadata in a file, if there is such a file. -/
def read (files : Files) (path : String) : Except ResolverError (Option PackageMeta) :=
  match files.readText path with
  | .error .notFound => .ok none
  | .error fault => .error (.unreadable path fault)
  | .ok source =>
    match ofText source with
    | .error flaw => .error (.malformed path flaw)
    | .ok info => .ok (some info)

/-- The metadata of the package in a directory, if one is installed there. -/
def readInstalled (files : Files) (directory : String) :
    Except ResolverError (Option PackageMeta) := do
  match ← read files (Path.under directory installedName) with
  | some info => return some info
  | none => read files (Path.under directory Manifest.fileName)

end PackageMeta

namespace Files

/-- The names that the metadata at one place declares. -/
def namesIn : String × Node → List String
  | (_, .directory _) => []
  | (path, .file content _) =>
    if (Text.stripEnd? Manifest.fileName.toList path.toList).isNone then []
    else match (Text.decode? content).map PackageMeta.ofText with
      | some (.ok info) => Dictionary.keys info.dependencies
      | _ => []

/-- The names that some metadata declares. -/
def declaredNames (files : Files) : List String :=
  files.nodes.flatMap namesIn

end Files

/-- A computation with the set of the names on the way down. -/
abbrev Scanning := StateT (List String) (Except ResolverError)

namespace Dependency

/-- The node of a declared package, with what `descend` finds below an installed one that does not
stand above itself. -/
def scanNode (files : Files) (directory : String) (descend : PackageMeta → Scanning Dependencies)
    (name : String) : Scanning (String × Dependency) := do
  match ← PackageMeta.readInstalled files (Path.under directory name) with
  | none => return (name, absent)
  | some child =>
    if name ∈ (← get) then return (name, installed child [])
    else
      modify (name :: ·)
      let below ← descend child
      modify (·.erase name)
      return (name, installed child below)

/-- The packages that `info` declares, in the install directory `directory`, at most as deep as the
fuel. -/
def scanBelow (files : Files) (directory : String) : Nat → PackageMeta → Scanning Dependencies
  | 0, _ => return []
  | fuel + 1, info =>
    (Dictionary.keys info.dependencies).mapM
      (scanNode files directory fun child => scanBelow files directory fuel child)

/-- The tree below the project at `root`. -/
def scan (root : String) (config : ResolverConfig) (files : Files) :
    Except ResolverError Dependency := do
  let info := (← PackageMeta.read files (Path.under root Manifest.fileName)).getD {}
  let directory := Path.under root config.installDirectory
  let dependencies ← (scanBelow files directory (files.declaredNames.length + 1) info).run' []
  return installed info dependencies

end Dependency

/-- The resolver that only reads what is installed below `root`. -/
def Resolver.readOnly (root : String) : Resolver where
  list := Dependency.scan root
  update _ _ config files :=
    (.error (.noManager (Path.under root config.installDirectory)), files)

end Retrofit

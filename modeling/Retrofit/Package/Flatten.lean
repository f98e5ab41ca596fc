import Retrofit.Dependency.Visits
import Retrofit.Package.Basic
import Retrofit.Path.Basic

/-!
# From the dependency tree to the package map

**Records.** The files of a package are its declared entry files, then those that the patch set of
its version adds or patches.

**Order.** The records go into the map in the order of the visits, so a name that is visited again
gets the record of the last visit.
-/

namespace Retrofit

open Text

namespace PackageRecord

/-- A declared file as it is listed: without a leading `./`. -/
def listedName (file : String) : String :=
  match strip? ['.', '/'] file.toList with
  | some rest => String.ofList rest
  | none => file

/-- The declared files: each once, and not the directory of the package itself. -/
def declaredFiles (directory name : String) (declared : List String) : List String :=
  declared.foldl (fun files file =>
    let file := listedName file
    if file = Path.join directory name ∨ file ∈ files then files else files ++ [file]) []

/-- The files behind those that one entry of a patch set brings: added files always, a patched
file if it is not listed yet. -/
def mergeEntry (files : List String) : String × FilePatch → List String
  | (_, .add added) => files ++ added
  | (key, .transforms _) => if key ∈ files then files else files ++ [key]

/-- The files together with those that a patch set brings. -/
def mergePatches (files : List String) (set : PatchSet) : List String :=
  set.entries.foldl mergeEntry files

def ofInfo (catalog : Catalog) (directory name : String) (info : PackageMeta) : PackageRecord :=
  let version := info.version.getD Tag.none
  let declared := declaredFiles directory name ((info.main.map MainFiles.toList).getD [])
  let patches := catalog.patchesFor? name version
  { version, files := (patches.map (mergePatches declared)).getD declared, patches }

end PackageRecord

/-- The map after a visit of a node. -/
def PackageMap.visit (catalog : Catalog) (directory : String) (map : PackageMap)
    (visited : String × Dependency) : PackageMap :=
  map.insert visited.1 (PackageRecord.ofInfo catalog directory visited.1 visited.2.info)

/-- The map after a tree was visited. -/
def PackageMap.flatten (catalog : Catalog) (directory : String) (tree : Dependencies)
    (map : PackageMap) : PackageMap :=
  tree.visits.foldl (visit catalog directory) map

end Retrofit

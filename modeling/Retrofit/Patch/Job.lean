import Retrofit.Package.Basic
import Retrofit.Path.Basic

/-!
# Patch jobs

A job takes one patched file of a package through its transforms and writes the result beside it.
-/

namespace Retrofit

/-- A file to patch, where the result goes, and the transforms between the two. -/
structure PatchJob where
  source : String
  artifact : String
  transforms : List Transform
deriving DecidableEq, Repr

/-- The job for a patched file of a package below `root`. -/
def PatchJob.ofFile (root directory marker name : String) (file : String × List Transform) :
    PatchJob :=
  let path := Path.join (Path.join directory name) file.1
  { source := Path.under root path
    artifact := Path.under root (Path.patchedName path marker)
    transforms := file.2 }

/-- The jobs for all patched files of all packages, in the order of the map. -/
def PackageMap.jobs (packages : PackageMap) (root directory marker : String) : List PatchJob :=
  packages.entries.flatMap fun (name, record) =>
    record.patchedFiles.map (PatchJob.ofFile root directory marker name)

end Retrofit

import Retrofit.Files.Basic
import Retrofit.Path.Basic
import Retrofit.Project.Manifest
import Retrofit.Project.ResolverConfig

/-!
# Loading the inputs of a project

Both files may be missing. A manifest that cannot be read is an empty one; settings that cannot be
read, or are malformed in any place, are dropped as a whole.
-/

namespace Retrofit

def Manifest.load (files : Files) (root : String) : Manifest :=
  match files.readText (Path.under root fileName) with
  | .ok source => ⟨source⟩
  | .error _ => {}

/-- The settings of the package manager for the project at `root`. -/
def ResolverConfig.load (files : Files) (root : String) : ResolverConfig :=
  match files.readText (Path.under root fileName) with
  | .ok source => (ofText source).toOption.getD {}
  | .error _ => {}

end Retrofit

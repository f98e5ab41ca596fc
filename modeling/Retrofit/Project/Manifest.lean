import Retrofit.Digest.Sha256
import Retrofit.Json.Shape

/-!
# The project's manifest

The file `bower.json` declares what a project depends on. Its text is kept as it is, because its
digest tells whether the dependencies have to be updated.
-/

namespace Retrofit

structure Manifest where
  text : String := "\x7b\x7d"
deriving DecidableEq, Repr

namespace Manifest

open Shape

def fileName : String := "bower.json"

/-- The digest of the text. -/
def hash (m : Manifest) : String :=
  Sha256.hex m.text

/-- The names of the declared dependencies. -/
def namesShape : Shape (List String) :=
  record "ManifestDependencies" [
    .given "dependencies" (dictionary Shape.json) fun v _ => Dictionary.keys v] []

/-- The names of the declared dependencies in ascending order. -/
def dependencyNames (m : Manifest) : Except Flaw (List String) :=
  Shape.ofText namesShape m.text

end Manifest

end Retrofit

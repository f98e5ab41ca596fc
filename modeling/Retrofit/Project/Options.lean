/-!
# Options of a project

What the user may set for a project. The options do not change while the project is worked on.
-/

namespace Retrofit

structure ProjectOptions where
  /-- The directory with the manifest. -/
  root : String := "."
  /-- Where the patch catalog is. -/
  patches : String := "https://raw.githubusercontent.com/durko/esx-legacy/master/patch.json"
  /-- The directory from which the locations of modules are seen. -/
  baseDir : String := "src"
  /-- The directory below which a module loader finds the packages. -/
  vendorPrefix : String := ""
  /-- The part of a file name that marks artifacts. -/
  marker : String := "es6"
  /-- Whether packages may come only from what is stored locally. -/
  offline : Bool := false
deriving DecidableEq, Repr

end Retrofit

import Retrofit.Path.Basic

/-!
# Where a catalog is

The catalog is a file of the project or a resource on the network; the text of its location tells
which.
-/

namespace Retrofit

/-- Where a catalog is read from. -/
inductive CatalogLocation where
  | file (path : String)
  | remote (url : String)
deriving DecidableEq, Repr

namespace CatalogLocation

/-- The location that a text names: everything that starts with `http` is on the network, all else
is a path from the project's root. -/
def ofText (text root : String) : CatalogLocation :=
  if (Text.strip? "http".toList text.toList).isSome then .remote text
  else .file (Path.under root text)

def text : CatalogLocation → String
  | .file path => path
  | .remote url => url

end CatalogLocation

end Retrofit

import Retrofit.Json.Shape

/-!
# The resolver's configuration

The file `.bowerrc` belongs to the package manager. Only the install directory is of interest here;
all other settings are kept as they are.
-/

namespace Retrofit

/-- The settings of the package manager. -/
structure ResolverConfig where
  directory : Option String := none
  extra : List (String × Json) := []
deriving Repr

namespace ResolverConfig

open Shape

def fileName : String := ".bowerrc"

/-- The install directory if none is set. -/
def defaultDirectory : String := "bower_components"

/-- The install directory, relative to the project. -/
def installDirectory (c : ResolverConfig) : String :=
  match c.directory with
  | some d => if d.isEmpty then defaultDirectory else d
  | none => defaultDirectory

/-- The settings among the members of an object; `seen` once the directory was read. -/
def settings (o : Origin) :
    List (Option String × Draft) → Bool → ResolverConfig → Except Flaw ResolverConfig
  | [], _, c => .ok c
  | (k, d) :: rest, seen, c => do
    let k ← key k
    if k = "directory" then
      if seen then .error (.duplicateField k)
      else
        let directory ← optional text o d
        settings o rest true { c with directory }
    else
      let v ← json o d
      settings o rest seen { c with extra := Dictionary.insert k v c.extra }

def shape : Shape ResolverConfig
  | o, .object members fault => do
    let c ← settings (← o.enter) members false {}
    atEnd fault
    return c
  | _, d => mismatch "struct ResolverConfig" d

/-- The settings that a text holds. -/
def ofText (source : String) : Except Flaw ResolverConfig :=
  Shape.ofText shape source

/-- The settings as an object again. -/
def toJson (c : ResolverConfig) : Json :=
  .object ((c.directory.map fun d => ("directory", .string d)).toList ++ c.extra)

end ResolverConfig

end Retrofit

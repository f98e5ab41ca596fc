import Retrofit.Json.Basic
import Retrofit.Package.Basic
import Retrofit.Path.Basic

/-!
# Views of the package map

What later build steps want to know: the entry module of each package for a module loader, all
files of all packages, and the scripts of one package. Where a file is patched, its artifact is
named.
-/

namespace Retrofit

/-- The entry of a package in the configuration of a module loader. -/
structure ModuleConfig where
  /-- The name of the package below the vendor prefix. -/
  name : String
  /-- The name of the entry module without its ending. -/
  main : String
  /-- The directory of the entry module, seen from the base directory. -/
  location : String
deriving DecidableEq, Repr

/-- An entry as an object. -/
def ModuleConfig.toJson (m : ModuleConfig) : Json :=
  .object [("name", .string m.name), ("main", .string m.main), ("location", .string m.location)]

/-- The package map together with the settings that its views depend on. -/
structure Projection where
  packages : PackageMap
  directory : String
  baseDir : String
  vendorPrefix : String
  marker : String

namespace Projection

open Text

/-- The path of a file of a package, or of its artifact if it is patched. -/
def resolvedPath (p : Projection) (name : String) (record : PackageRecord) (file : String) :
    String :=
  let file := if record.isPatched file then Path.patchedName file p.marker else file
  Path.join (Path.join p.directory name) file

/-- A file name without the ending of scripts. -/
def withoutEnding (file : String) : String :=
  match stripEnd? ".js".toList file.toList with
  | some front => String.ofList front
  | none => file

/-- The entry of a package that has a script. -/
def moduleConfig? (p : Projection) (name : String) (record : PackageRecord) :
    Option ModuleConfig := do
  let first ← record.files.find? Path.isScript
  let path := p.resolvedPath name record first
  return {
    name := Path.join p.vendorPrefix name
    main := withoutEnding (Path.basename path)
    location := Path.relative p.baseDir (Path.dirname path) }

/-- The entries of all packages that have a script. -/
def moduleConfigs (p : Projection) : List ModuleConfig :=
  p.packages.entries.filterMap fun (name, record) => p.moduleConfig? name record

/-- The files of all packages. -/
def filenames (p : Projection) : List String :=
  p.packages.entries.flatMap fun (name, record) => record.files.map (p.resolvedPath name record)

/-- The scripts among `names`, or among the files of the package if no names are given; none if
they are needed and the package is unknown. -/
def scripts? (p : Projection) (package : String) (names : List String) : Option (List String) := do
  let files ← if names.isEmpty then (p.packages.get? package).map (·.files) else some names
  let directory := Path.join p.directory package
  return (files.filter Path.isScript).map (Path.join directory)

/-- The words for a package that is not in the map. -/
def unknownPackage (package : String) : String :=
  "Package '" ++ package ++ "' is not installed"

end Projection

end Retrofit

import Retrofit.Json.Basic

/-!
# Dependency trees

The resolver describes what is installed as a tree: each node holds the metadata of a package and
the nodes of the packages it depends on, by name. A node that is missing was declared but is not
installed.
-/

namespace Retrofit

/-- The entry files of a package: one path or a list of paths. -/
inductive MainFiles where
  | one (file : String)
  | many (files : List String)
deriving DecidableEq, Repr

def MainFiles.toList : MainFiles → List String
  | .one file => [file]
  | .many files => files

structure PackageMeta where
  name : Option String := none
  version : Option String := none
  main : Option MainFiles := none
  dependencies : Dictionary String := []
deriving DecidableEq, Repr

/-- A node of the dependency tree. -/
inductive Dependency where
  | mk (info : PackageMeta) (missing : Bool) (dependencies : List (String × Dependency))
deriving Repr

/-- The nodes of a tree by package name. -/
abbrev Dependencies := Dictionary Dependency

namespace Dependency

def info : Dependency → PackageMeta
  | mk info _ _ => info

/-- Whether the package is declared but not installed. -/
def missing : Dependency → Bool
  | mk _ missing _ => missing

/-- The nodes below. -/
def dependencies : Dependency → Dependencies
  | mk _ _ dependencies => dependencies

/-- A node without anything. -/
def empty : Dependency := mk {} false []

/-- A node for a package that is not installed. -/
def absent : Dependency := mk {} true []

def installed (info : PackageMeta) (dependencies : Dependencies) : Dependency :=
  mk info false dependencies

end Dependency

/-! ## Writing -/

/-- The entry files in the form in which they were given. -/
def MainFiles.toJson : MainFiles → Json
  | .one file => .string file
  | .many files => .ofTextList files

/-- The metadata; what is not given is left out. -/
def PackageMeta.toJson (m : PackageMeta) : Json :=
  .object <|
    (m.name.map fun v => ("name", .string v)).toList
      ++ (m.version.map fun v => ("version", .string v)).toList
      ++ (m.main.map fun v => ("main", v.toJson)).toList
      ++ (if m.dependencies.isEmpty then [] else [("dependencies", .ofTexts m.dependencies)])

namespace Dependency

mutual

/-- A node with all its fields. -/
def toJson : Dependency → Json
  | mk info missing dependencies => .object [
      ("pkgMeta", info.toJson), ("missing", .bool missing),
      ("dependencies", .object (toMembers dependencies))]

/-- The nodes of a tree as the members of an object. -/
def toMembers : List (String × Dependency) → List (String × Json)
  | [] => []
  | (name, node) :: rest => (name, toJson node) :: toMembers rest

end

end Dependency

def Dependencies.toJson (tree : Dependencies) : Json :=
  .object (Dependency.toMembers tree)

end Retrofit

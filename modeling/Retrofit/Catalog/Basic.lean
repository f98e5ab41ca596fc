import Retrofit.Dictionary
import Retrofit.Version.Tag
import Retrofit.Transform.Basic

/-!
# The patch catalog

A catalog holds, for packages by name and versions by tag, the patches that apply from that version
on. A patch set says for each file which transforms it goes through, or which files are added to
the package. The order of its files is that of the document, because it decides where patched
files stand in the file list of a package.
-/

namespace Retrofit

/-- What a patch set says under one key. -/
inductive FilePatch where
  /-- The file goes through these transforms in their order. -/
  | transforms (steps : List Transform)
  /-- These files are added to the package. -/
  | add (files : List String)
deriving DecidableEq, Repr

/-- The patches for one version of a package, each key once. -/
structure PatchSet where
  entries : List (String × FilePatch)
deriving DecidableEq, Repr

namespace PatchSet

/-- The key of the files that a patch set adds. -/
def addKey : String := "_add"

def empty : PatchSet := ⟨[]⟩

/-- Entries in which `key` has the value `patch`, in its place if it has one and at the end if
not. -/
def insertEntry (key : String) (patch : FilePatch) :
    List (String × FilePatch) → List (String × FilePatch)
  | [] => [(key, patch)]
  | (k, p) :: rest =>
    if k = key then (k, patch) :: rest else (k, p) :: insertEntry key patch rest

/-- The patch set in which `key` has the value `patch`. -/
def insert (set : PatchSet) (key : String) (patch : FilePatch) : PatchSet :=
  ⟨insertEntry key patch set.entries⟩

/-- The patch set of pairs in their order; of two with one key the later one counts, in the place
of the earlier one. -/
def ofList (pairs : List (String × FilePatch)) : PatchSet :=
  pairs.foldl (fun set p => set.insert p.1 p.2) empty

/-- The transforms under one entry if it is that of `file`. -/
def entryTransforms? (file : String) : String × FilePatch → Option (List Transform)
  | (key, .transforms steps) => if key = file then some steps else none
  | _ => none

/-- The transforms that `file` goes through, if it is patched. -/
def transformsFor? (set : PatchSet) (file : String) : Option (List Transform) :=
  set.entries.findSome? (entryTransforms? file)

def isPatched (set : PatchSet) (file : String) : Bool :=
  (set.transformsFor? file).isSome

/-- The number of entries. -/
def size (set : PatchSet) : Nat :=
  set.entries.length

end PatchSet

/-- Patch sets by package name and version tag. -/
abbrev Catalog := Dictionary (Dictionary PatchSet)

namespace Catalog

/-- The version tags under which a package has patches. -/
def versions (catalog : Catalog) (name : String) : List String :=
  ((Dictionary.get? name catalog).map Dictionary.keys).getD []

/-- The version tag of the catalog that serves a version of a package. -/
def selectVersion (catalog : Catalog) (name version : String) : String :=
  Tag.select version (catalog.versions name)

def patchesFor? (catalog : Catalog) (name version : String) : Option PatchSet := do
  let versions ← Dictionary.get? name catalog
  Dictionary.get? (catalog.selectVersion name version) versions

end Catalog

end Retrofit

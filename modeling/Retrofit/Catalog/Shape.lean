import Retrofit.Catalog.Basic
import Retrofit.Transform.Shape

/-!
# Reading catalogs

A catalog is an object of packages, each an object of versions, each an object of files. The key
`_add` holds file names, as a list or as the values of an object; every other key holds a list of
transforms.
-/

namespace Retrofit

open Shape

/-- File names: a list of them, or an object whose keys do not matter. -/
def FilePatch.addedShape : Shape (List String)
  | o, .array items fault => list text o (.array items fault)
  | o, .object members fault => do
    let read ← pairs "" (fun _ => text) o (.object members fault)
    return read.map Prod.snd
  | _, d => mismatch "a list or map of filenames" d

/-- What stands under a key of a patch set. -/
def FilePatch.shape (key : String) : Shape FilePatch := fun o d =>
  if key = PatchSet.addKey then (addedShape o d).map .add
  else (list Transform.shape o d).map .transforms

/-- A patch set in document order. -/
def PatchSet.shape : Shape PatchSet := fun o d =>
  (pairs "a map of file paths to transform lists" FilePatch.shape o d).map PatchSet.ofList

def Catalog.shape : Shape Catalog :=
  dictionary (dictionary PatchSet.shape)

def Catalog.ofText (source : String) : Except Flaw Catalog :=
  Shape.ofText Catalog.shape source

end Retrofit

import Retrofit.Json.Shape
import Retrofit.Dependency.Basic

/-!
# Reading dependency trees

Every field of a node and of the metadata in it may be missing. The nodes of a tree are nested as
deep as their draft, so the depth of the draft bounds the recursion.
-/

namespace Retrofit

open Shape

mutual

/-- The number of arrays and objects around the innermost part of a draft, and one. -/
def Draft.depth : Draft → Nat
  | .array items _ => itemsDepth items + 1
  | .object members _ => membersDepth members + 1
  | _ => 1

def Draft.itemsDepth : List Draft → Nat
  | [] => 0
  | d :: rest => max d.depth (itemsDepth rest)

def Draft.membersDepth : List (Option String × Draft) → Nat
  | [] => 0
  | (_, d) :: rest => max d.depth (membersDepth rest)

end

def Json.texts? (items : List Json) : Option (List String) :=
  items.mapM fun
    | .string s => some s
    | _ => none

/-- One path or a list of paths. -/
def MainFiles.shape : Shape MainFiles := fun o d => do
  let other : Except Flaw MainFiles := .error (.noVariant "MainFiles")
  match ← Shape.json o d with
  | .string file => .ok (.one file)
  | .array items =>
    match Json.texts? items with
    | some files => .ok (.many files)
    | none => other
  | _ => other

def PackageMeta.shape : Shape PackageMeta :=
  record "PackageMeta" [
    .given "name" (optional text) fun v r => { r with name := v },
    .given "version" (optional text) fun v r => { r with version := v },
    .given "main" (optional MainFiles.shape) fun v r => { r with main := v },
    .given "dependencies" (dictionary text) fun v r => { r with dependencies := v }] {}

namespace Dependency

/-- A node that is nested at most as deep as the fuel. -/
def shapeWithin : Nat → Shape Dependency
  | 0 => fun _ _ => .error (.fault .malformed)
  | fuel + 1 =>
    record "DependencyDescription" [
      .given "pkgMeta" PackageMeta.shape fun v r => mk v r.missing r.dependencies,
      .given "missing" bool fun v r => mk r.info v r.dependencies,
      .given "dependencies" (dictionary (shapeWithin fuel)) fun v r => mk r.info r.missing v]
      empty

def shape : Shape Dependency := fun o d =>
  shapeWithin d.depth o d

/-- The node that a text holds. -/
def ofText (source : String) : Except Flaw Dependency :=
  Shape.ofText shape source

end Dependency

def Dependencies.shape : Shape Dependencies :=
  dictionary Dependency.shape

end Retrofit

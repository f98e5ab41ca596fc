import Retrofit.Json.Shape
import Retrofit.Transform.Basic

/-!
# Reading transforms

A transform is written as its kind and its parameters. The parameters are read as a value first and
then by the shape that the kind asks for; older names of kinds are understood, and a kind that is
not known takes any parameters.
-/

namespace Retrofit

open Shape

/-! ## Edits -/

/-- An address is a list of indices. -/
def Script.Address.shape : Shape Script.Address :=
  list index

/-- A substitution names the place in the snippet and then the node of the script. -/
def Script.Substitution.shape : Shape Script.Substitution :=
  record "Substitution" [
    .needed "left" Script.Address.shape fun v r => { r with target := v },
    .needed "right" Script.Address.shape fun v r => { r with source := v }] ⟨[], []⟩

namespace Script.Edit

/-- The fields of an edit of the first kind. -/
def unshiftShape : Shape (Address × String) :=
  fields "struct variant AstStep::Unshift" [
    .given "key" Address.shape fun v r => (v, r.2),
    .needed "value" text fun v r => (r.1, v)] ([], "")

/-- The field of an edit of the second kind. -/
def pushShape : Shape String :=
  fields "struct variant AstStep::Push" [.needed "value" text fun v _ => v] ""

/-- The fields of an edit of the third kind. -/
def assignShape : Shape (Address × String × List Substitution) :=
  fields "struct variant AstStep::Assign" [
    .needed "left" Address.shape fun v r => (v, r.2),
    .needed "right" text fun v r => (r.1, v, r.2.2),
    .given "rightReplace" (list Substitution.shape) fun v r => (r.1, r.2.1, v)] ([], "", [])

def kinds : List String := ["unshift", "push", "assign"]

/-- The kind of an edit: one of the known names. -/
def kindShape : Shape String
  | _, .string (some kind) =>
    if kind ∈ kinds then .ok kind else .error (.unknownVariant kind kinds)
  | _, d => mismatch "variant identifier" d

/-- The fields of an edit of a known kind. -/
def bodyShape (kind : String) : Shape Edit := fun o d =>
  if kind = "unshift" then (unshiftShape o d).map fun (key, value) => .unshift key value
  else if kind = "push" then (pushShape o d).map .push
  else (assignShape o d).map fun (left, right, copies) => .assign left right copies

/-- An edit: an object with its kind beside its fields, or an array that starts with its kind. The
fields are set aside until the kind is known. -/
def shape : Shape Edit
  | o, .object members fault => do
    match members.find? (·.1 == some "type") with
    | some (_, d) =>
      let kind ← kindShape o d
      bodyShape kind .buffer (.object (members.filter (·.1 != some "type")) fault)
    | none => .error (.missingField "type")
  | o, .array (d :: items) fault => do
    let kind ← kindShape o d
    bodyShape kind .buffer (.array items fault)
  | _, .array [] _ => .error (.missingField "type")
  | _, d => mismatch "internally tagged enum AstStep" d

end Script.Edit

/-! ## Parameters -/

/-- An import: the variable and the module. -/
def Import.shape : Shape Import :=
  record "ImportBinding" [
    .needed "var" text fun v r => { r with variableName := v },
    .needed "module" text fun v r => { r with module := v }] ⟨"", ""⟩

/-- An export: its form and the variable. -/
def Export.shape : Shape Export :=
  record "ExportBinding" [
    .needed "name" text fun v r => { r with name := v },
    .needed "var" text fun v r => { r with variableName := v }] ⟨"", ""⟩

namespace Transform

/-- Imports and exports, none where they are not given. -/
def moduleWrapShape : Shape (List Import × List Export) :=
  record "ModuleWrap" [
    .given "import" (list Import.shape) fun v r => (v, r.2),
    .given "export" (list Export.shape) fun v r => (r.1, v)] ([], [])

/-- A pattern and a template. -/
def replaceShape : Shape (String × String) :=
  record "Replace" [
    .needed "regex" text fun v r => (v, r.2),
    .needed "replace" text fun v r => (r.1, v)] ("", "")

def exportDefaultShape : Shape String :=
  record "ExportDefault" [.needed "var" text fun v _ => v] ""

/-- The transform of a kind with the given parameters. -/
def ofParts (kind : String) (parameters : Json) : Except Flaw Transform :=
  if kind = "module-wrap" ∨ kind = "es6-modules" then
    (Shape.ofJson moduleWrapShape parameters).map fun (i, e) => .moduleWrap i e
  else if kind = "prepend" then (Shape.ofJson text parameters).map .prepend
  else if kind = "append" then (Shape.ofJson text parameters).map .append
  else if kind = "replace" then
    (Shape.ofJson replaceShape parameters).map fun (p, t) => .replace p t
  else if kind = "plugin-wrap" ∨ kind = "jquery-plugin" then .ok .pluginWrap
  else if kind = "export-default" ∨ kind = "export" then
    (Shape.ofJson exportDefaultShape parameters).map .exportDefault
  else if kind = "ast-mutate" ∨ kind = "munge-ast" then
    (Shape.ofJson (list Script.Edit.shape) parameters).map .editScript
  else .ok (.unsupported kind)

/-- The kind and the parameters of a transform, null if there are none. -/
def partsShape : Shape (String × Json) :=
  record "RawTransform" [
    .needed "type" text fun v r => (v, r.2),
    .given "parameters" Shape.json fun v r => (r.1, v)] ("", .null)

def shape : Shape Transform := fun o d => do
  let (kind, parameters) ← partsShape o d
  (ofParts kind parameters).mapError (.parameters kind)

end Transform

end Retrofit

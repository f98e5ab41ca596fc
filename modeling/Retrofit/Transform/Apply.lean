import Retrofit.Path.Basic
import Retrofit.Pattern.Source
import Retrofit.Script.Editing
import Retrofit.Script.Source
import Retrofit.Transform.Basic
import Retrofit.Transform.Template

/-!
# Applying transforms

Every transform is a function from a source to a source. A list of transforms is applied from left
to right, and fails with the first transform that fails.

Two kinds of transforms rest on `Engines`: replacements on a search for a pattern, and edits on a
parser of scripts. `Transform.applyWith` takes any engines, and `Transform.apply` those of the
library.
-/

namespace Retrofit

inductive TransformError where
  /-- The pattern of a replacement is not well formed. -/
  | pattern (source : String)
  | edit (error : Script.EditError)
  | unsupported (kind : String)
deriving DecidableEq, Repr

def TransformError.message : TransformError → String
  | .pattern source =>
    "Cannot compile regex '" ++ source
      ++ "' (Rust regex syntax, without lookaround or backreferences): invalid pattern"
  | .edit error => "AST rewrite failed: " ++ error.message
  | .unsupported kind => "Unknown transform type '" ++ kind ++ "'"

/-- What transforms search and parse with. -/
structure Engines where
  /-- The search for the first match of a pattern; nothing if the pattern is not well formed. -/
  search? : String → Option Search
  parser : Script.Parser

/-- The pattern language and the grammar of the library. -/
def Engines.own : Engines where
  search? pattern := (Program.ofText? pattern).map Program.search
  parser := Script.sourceTree?

namespace Transform

/-- The library that plugins extend, relative to the directory of libraries. -/
def pluginHost : String := "jquery"

/-- Imports in front of a source and exports behind it. -/
def wrapModule (imports : List Import) (exports : List Export) (source : String) : String :=
  String.join (imports.map fun i =>
    "import " ++ i.variableName ++ " from \"" ++ i.module ++ "\";\n")
    ++ source ++ "\n"
    ++ String.join (exports.map fun e => "export " ++ e.name ++ " " ++ e.variableName ++ ";\n")

/-- A plugin as a module; `vendor` is the directory of libraries. -/
def wrapPlugin (vendor source : String) : String :=
  "import $ from \"" ++ Path.join vendor pluginHost ++ "\";\nvar jQuery = $, jquery = $;\n"
    ++ source ++ "\nexport default 0;"

/-- The source with the first match that a search finds replaced. -/
def replaceFirst (search : Search) (template source : String) : String :=
  match search.find? source.toList with
  | none => source
  | some m => String.ofList (m.before ++ (Template.expand m template ++ m.after))

/-- The source after a transform; `vendor` is the directory of libraries. -/
def applyWith (engines : Engines) (vendor : String) (t : Transform) (source : String) :
    Except TransformError String :=
  match t with
  | moduleWrap imports exports => .ok (wrapModule imports exports source)
  | prepend text => .ok (text ++ "\n" ++ source)
  | append text => .ok (source ++ "\n" ++ text)
  | replace pattern template =>
    match engines.search? pattern with
    | none => .error (.pattern pattern)
    | some search => .ok (replaceFirst search template source)
  | pluginWrap => .ok (wrapPlugin vendor source)
  | exportDefault variableName => .ok (source ++ "\nexport default " ++ variableName)
  | editScript edits =>
    match Script.ofText engines.parser source >>= Script.applyAll engines.parser edits with
    | .error error => .error (.edit error)
    | .ok script => .ok script.text
  | unsupported kind => .error (.unsupported kind)

/-- The source after transforms one after the other. -/
def applyAllWith (engines : Engines) (vendor : String) (transforms : List Transform)
    (source : String) : Except TransformError String :=
  transforms.foldlM (fun source t => t.applyWith engines vendor source) source

def apply (vendor : String) (t : Transform) (source : String) : Except TransformError String :=
  t.applyWith .own vendor source

def applyAll (vendor : String) (transforms : List Transform) (source : String) :
    Except TransformError String :=
  applyAllWith .own vendor transforms source

theorem applyAllWith_cons {engines : Engines} {vendor : String} (t : Transform)
    (rest : List Transform) (source : String) :
    applyAllWith engines vendor (t :: rest) source =
      t.applyWith engines vendor source >>= applyAllWith engines vendor rest :=
  List.foldlM_cons

theorem applyAll_cons {vendor : String} (t : Transform) (rest : List Transform) (source : String) :
    applyAll vendor (t :: rest) source = t.apply vendor source >>= applyAll vendor rest :=
  applyAllWith_cons t rest source

end Transform

end Retrofit

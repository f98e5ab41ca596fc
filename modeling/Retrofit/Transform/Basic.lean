import Retrofit.Script.Address

/-!
# Transforms

A transform is one step in the patching of a source file. The kinds form a closed set; a kind
outside of it is kept as `unsupported`, so that only the files that need it fail.
-/

namespace Retrofit

/-- A module that a patched file imports, and the variable that its default export is bound to. -/
structure Import where
  variableName : String
  module : String
deriving DecidableEq, Repr

/-- A variable that a patched file exports, and the form of the export. -/
structure Export where
  name : String
  variableName : String
deriving DecidableEq, Repr

/-- One step in the patching of a source file. -/
inductive Transform where
  /-- Imports in front of the source and exports behind it. -/
  | moduleWrap (imports : List Import) (exports : List Export)
  | prepend (text : String)
  | append (text : String)
  /-- The first match of a regular expression is replaced. -/
  | replace (pattern template : String)
  /-- A plugin imports the library that it extends and exports something. -/
  | pluginWrap
  | exportDefault (variableName : String)
  /-- Structural edits of the script. -/
  | editScript (edits : List Script.Edit)
  | unsupported (kind : String)
deriving DecidableEq, Repr

def Transform.kind : Transform → String
  | .moduleWrap _ _ => "module-wrap"
  | .prepend _ => "prepend"
  | .append _ => "append"
  | .replace _ _ => "replace"
  | .pluginWrap => "plugin-wrap"
  | .exportDefault _ => "export-default"
  | .editScript _ => "ast-mutate"
  | .unsupported kind => kind

end Retrofit

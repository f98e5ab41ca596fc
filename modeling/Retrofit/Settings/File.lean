import Retrofit.Toml.Basic

/-!
# The settings file

The file `esx.toml` in the project may set what the command line can set, the marker of artifacts
and the package manager. No setting may be given twice or have a value of another kind, and there
are no others.
-/

namespace Retrofit

/-- What a settings file says. -/
structure FileSettings where
  patches : Option String := none
  baseDir : Option String := none
  vendorPrefix : Option String := none
  offline : Option Bool := none
  marker : Option String := none
  manager : Option String := none
deriving DecidableEq, Repr

namespace FileSettings

open Toml

def fileName : String := "esx.toml"

/-- Sets what is not set yet. -/
def setOnce {α : Type} (old : Option α) (set : FileSettings) : Option FileSettings :=
  if old.isSome then none else some set

/-- The settings together with those of one line. -/
def add (s : FileSettings) : String × Scalar → Option FileSettings
  | ("patches", .text v) => setOnce s.patches { s with patches := v }
  | ("base_dir", .text v) => setOnce s.baseDir { s with baseDir := v }
  | ("vendor_prefix", .text v) => setOnce s.vendorPrefix { s with vendorPrefix := v }
  | ("offline", .switch v) => setOnce s.offline { s with offline := v }
  | ("marker", .text v) => setOnce s.marker { s with marker := v }
  | ("bower", .text v) => setOnce s.manager { s with manager := v }
  | _ => none

def ofText? (document : String) : Option FileSettings := do
  (← entries? document).foldlM add {}

end FileSettings

end Retrofit

import Retrofit.CommandLine.Basic
import Retrofit.Files.Basic
import Retrofit.Path.Basic
import Retrofit.Project.Options
import Retrofit.Settings.File

/-!
# Settings

What the command line says counts more than what the settings file says, and that more than the
defaults. Only the marker and the package manager cannot be set on the command line. Without the
network is enough to be said once.
-/

namespace Retrofit

structure Settings where
  options : ProjectOptions
  /-- The package manager's program. -/
  manager : String
deriving DecidableEq, Repr

inductive SettingsError where
  | unreadable (path : String)
  | malformed (path : String)
deriving DecidableEq, Repr

def SettingsError.message : SettingsError → String
  | .unreadable path => "Failed to read " ++ path
  | .malformed path => "Failed to parse " ++ path

namespace Settings

/-- The package manager if none is set. -/
def defaultManager : String := "bower"

/-- The settings from the command line and the file. -/
def merge (o : GlobalOptions) (file : FileSettings) : Settings :=
  let default : ProjectOptions := {}
  { options := {
      root := o.rootPath
      patches := (o.patches <|> file.patches).getD default.patches
      baseDir := (o.baseDir <|> file.baseDir).getD default.baseDir
      vendorPrefix := (o.vendorPrefix <|> file.vendorPrefix).getD default.vendorPrefix
      marker := file.marker.getD default.marker
      offline := o.offline || file.offline.getD false }
    manager := file.manager.getD defaultManager }

/-- The settings from the command line and the file that it names, or the one in the project, which
may be missing. -/
def load (files : Files) (o : GlobalOptions) : Except SettingsError Settings :=
  let path := o.config.getD (Path.under o.rootPath FileSettings.fileName)
  match files.readText path with
  | .ok document =>
    match FileSettings.ofText? document with
    | some file => .ok (merge o file)
    | none => .error (.malformed path)
  | .error fault =>
    if fault = .notFound ∧ o.config.isNone then .ok (merge o {}) else .error (.unreadable path)

end Settings

end Retrofit

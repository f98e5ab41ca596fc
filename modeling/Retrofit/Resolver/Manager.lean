import Retrofit.Resolver.Changes
import Retrofit.Resolver.Installed
import Retrofit.Text.Blank

/-!
# Updates by a package manager

A package manager is a program that changes the files of the project. Its arguments say what to
install and where, and how it ends says whether it has succeeded. What has changed is found by a
comparison of what is installed before and after.
-/

namespace Retrofit

/-- How a run of a package manager ends. -/
inductive ManagerExit where
  | notFound
  | unstartable (reason : String)
  /-- What the program has written as its complaint counts only if it has not succeeded. -/
  | finished (succeeded : Bool) (complaint : List UInt8)
deriving DecidableEq, Repr

/-- A program that can be run in the project. -/
structure PackageManager where
  name : String
  run : (arguments : List String) → Files → ManagerExit × Files

/-- A package manager that cannot be started. A name with a slash is a path from the project at
`root`, and what stands there is not a program; any other name is looked for in vain. -/
def PackageManager.unavailable (name root : String) : PackageManager where
  name
  run _ files :=
    let exit : ManagerExit :=
      if '/' ∉ name.toList then .notFound
      else match files.get (Path.under root name) with
        | .ok _ => .unstartable "Permission denied (os error 13)"
        | .error .notFound => .notFound
        | .error fault => .unstartable fault.message
    (exit, files)

namespace Resolver

def updateArguments (names : List String) (offline : Bool) (config : ResolverConfig) :
    List String :=
  "update" :: names ++ (if offline then ["--offline"] else [])
    ++ ["--config.directory=" ++ config.installDirectory]

/-- Runs the package manager as a step that has to succeed. -/
def command (manager : PackageManager) (arguments : List String) (files : Files) :
    Except ResolverError Unit × Files :=
  let (exit, files) := manager.run arguments files
  match exit with
  | .notFound => (.error (.programNotFound manager.name), files)
  | .unstartable reason => (.error (.programUnstartable manager.name reason), files)
  | .finished true _ => (.ok (), files)
  | .finished false complaint =>
    let complaint := String.ofList (Text.trim (Text.decode complaint).toList)
    (.error (.programFailed manager.name arguments complaint), files)

/-- Installs by the package manager; the answer holds what has changed below `root`. -/
def updateBy (manager : PackageManager) (root : String) (names : List String) (offline : Bool)
    (config : ResolverConfig) (files : Files) : Except ResolverError Dependencies × Files :=
  match Dependency.scan root config files with
  | .error error => (.error error, files)
  | .ok before =>
    match command manager (updateArguments names offline config) files with
    | (.error error, files) => (.error error, files)
    | (.ok (), files) =>
      let changed := (Dependency.scan root config files).map fun after =>
        Dependencies.changedSince before.dependencies.versions after.dependencies
      (changed, files)

/-- The resolver that installs by a package manager. -/
def byManager (manager : PackageManager) (root : String) : Resolver where
  list := Dependency.scan root
  update := updateBy manager root

end Resolver

end Retrofit

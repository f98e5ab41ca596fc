import Retrofit.Catalog.Loading
import Retrofit.Package.Projection
import Retrofit.Patch.Pass
import Retrofit.Project.Manifest
import Retrofit.Project.Options
import Retrofit.Resolver.Basic

/-!
# Sessions

**What is fixed** (`Session`). The options of a project, the resolver that it uses, and the network.

**What changes** (`RunState`). What the stages have found out so far. A later run starts from the
state that the earlier one has left.

**Stages.** A stage works on the state, the files and the list of events, and may fail. What it did
to the files and the events before it failed remains.
-/

namespace Retrofit

/-- A project with its resolver. -/
structure Session where
  options : ProjectOptions
  resolver : Resolver
  network : Network := .disabled

/-- What the stages have found out. -/
structure RunState where
  config : ResolverConfig := {}
  /-- The install directory. -/
  directory : String := ResolverConfig.defaultDirectory
  manifest : Manifest := {}
  /-- The digest that the manifest had at the last update. -/
  manifestHash : Option String := none
  packages : PackageMap := .empty
  catalog : Catalog := []
  /-- The time of the file that the catalog comes from. -/
  catalogModified : Option Nat := none
deriving Repr

/-- The views of the packages that have been found. -/
def RunState.projection (state : RunState) (options : ProjectOptions) : Projection where
  packages := state.packages
  directory := state.directory
  baseDir := options.baseDir
  vendorPrefix := options.vendorPrefix
  marker := options.marker

/-- Why a stage fails. -/
inductive SessionError where
  | catalog (location : CatalogLocation) (error : CatalogError)
  | manifest (flaw : Flaw)
  | resolver (error : ResolverError)
  | patch (failures : List PatchFailure)
deriving DecidableEq, Repr

def SessionError.message : SessionError → String
  | .catalog location error =>
    "Failed to load patch catalog from " ++ location.text ++ ": " ++ error.message
  | .manifest flaw => "Malformed bower.json: " ++ flaw.message
  | .resolver error => "Package resolution failed: " ++ error.message
  | .patch failures => PatchFailure.describe failures

/-- What stages work on. -/
structure Workspace where
  state : RunState := {}
  files : Files
  /-- What has been reported so far, in order. -/
  events : List Event := []

/-- A step that may fail and keeps what it did. -/
abbrev Stage (α : Type) := ExceptT SessionError (StateM Workspace) α

namespace Stage

def report (event : Event) : Stage Unit :=
  modify fun w => { w with events := w.events ++ [event] }

def reportAll (events : List Event) : Stage Unit :=
  modify fun w => { w with events := w.events ++ events }

def update (f : RunState → RunState) : Stage Unit :=
  modify fun w => { w with state := f w.state }

def state : Stage RunState := do
  return (← get).state

/-- Fails with an error of its own kind. -/
def lift {ε α : Type} (wrap : ε → SessionError) (result : Except ε α) : Stage α :=
  match result with
  | .ok value => pure value
  | .error error => throw (wrap error)

/-- The result of a stage, and what it has left. -/
def runOn {α : Type} (stage : Stage α) (w : Workspace) : Except SessionError α × Workspace :=
  stage.run.run w

end Stage

end Retrofit

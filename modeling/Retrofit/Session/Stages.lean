import Retrofit.Package.Flatten
import Retrofit.Project.Loading
import Retrofit.Session.Basic

/-!
# The stages of a run

**Order.** The settings of the package manager, the manifest, the catalog, the installed packages,
an update if declared packages are not installed, and the patches. A run ends at the first stage
that fails.

**Updates.** The digest of the manifest is kept after an update that has succeeded. As long as the
manifest has that digest there is no other update.

**Failures.** A stage that fails leaves the state as it was.
-/

namespace Retrofit.Session

open Stage

/-- Reads the settings of the package manager. -/
def loadConfig (s : Session) : Stage Unit := do
  let config := ResolverConfig.load (← get).files s.options.root
  update fun state => { state with config, directory := config.installDirectory }

def loadManifest (s : Session) : Stage Unit := do
  let manifest := Manifest.load (← get).files s.options.root
  update fun state => { state with manifest }

def loadCatalog (s : Session) : Stage Unit := do
  report (.section "Loading patch catalog")
  let location := CatalogLocation.ofText s.options.patches s.options.root
  let loaded ← lift (.catalog location) (location.load s.network (← get).files)
  update fun state => { state with catalog := loaded.catalog }
  update fun state => { state with catalogModified := loaded.modified }

/-- The state in which the packages of a tree have records. -/
def record (tree : Dependencies) (state : RunState) : RunState :=
  { state with
    packages := state.packages.flatten state.catalog state.directory tree }

/-- Reads which packages are installed. -/
def listInstalled (s : Session) : Stage Unit := do
  report (.section "Reading installed packages")
  let w ← get
  let tree ← lift .resolver (s.resolver.list w.state.config w.files)
  update (record tree.dependencies)

/-- The event of a package that an update has changed. -/
def installedEvent (package : String × Dependency) : Event :=
  .installed package.1 (package.2.info.version.getD Tag.none)

/-- Installs what the manifest declares, unless the manifest is that of the last update. The
packages that have changed, or none if nothing was tried. -/
def updateAll (s : Session) : Stage (Option Dependencies) := do
  let before ← state
  let hash := before.manifest.hash
  if before.manifestHash = some hash then return none
  report (.section "Updating packages")
  let (result, files) := s.resolver.update [] s.options.offline before.config (← get).files
  modify fun w => { w with files }
  let changed ← lift .resolver result
  reportAll (changed.map installedEvent)
  update fun state => { record changed state with manifestHash := some hash }
  return some changed

/-- The warning about a package that an update did not install. -/
def stillMissing (name : String) : Event :=
  .warning (name ++ " is still not installed after update")

/-- Updates if a package that the manifest declares is not installed. -/
def updateIfMissing (s : Session) : Stage (Option Dependencies) := do
  let before ← state
  let declared ← lift .manifest before.manifest.dependencyNames
  let missing := declared.filter fun name => !before.packages.contains name
  if missing.isEmpty then return none
  match ← s.updateAll with
  | none => return none
  | some changed =>
    let after ← state
    reportAll ((missing.filter fun name => !after.packages.contains name).map stillMissing)
    return some changed

/-- All stages before the patches. -/
def resolve (s : Session) : Stage Unit := do
  s.loadConfig
  s.loadManifest
  s.loadCatalog
  s.listInstalled
  let _ ← s.updateIfMissing

/-- Rebuilds the artifacts that are stale; what is written gets the time `now`. -/
def patch (s : Session) (now : Nat) : Stage PatchReport := do
  report (.section "Patching")
  let w ← get
  let jobs := w.state.packages.jobs s.options.root w.state.directory s.options.marker
  let pass := Pass.run w.files s.options.vendorPrefix w.state.catalogModified now jobs
  modify fun w => { w with files := pass.files }
  reportAll pass.events
  lift .patch pass.outcome

def run (s : Session) (now : Nat) : Stage PatchReport := do
  s.resolve
  s.patch now

end Retrofit.Session

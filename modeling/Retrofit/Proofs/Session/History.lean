import Mathlib.Control.Monad.Basic
import Retrofit.Proofs.Except
import Retrofit.Proofs.Package.Map
import Retrofit.Proofs.Session.Stages
import Retrofit.Resolver.Installed

/-!
# Packages over the history of a session

A session goes on with what its earlier runs have found out. A `History` is any sequence of stages,
with changes of the files in between, and the resolver may answer differently every time. It keeps
the trees that listings and updates have recorded. Whole runs are histories as well
(`continues_run`).

**Invariant (`History.contains_iff`).** The package map has the names that some recorded tree has,
by induction on the history: a stage records a tree or leaves the map as it was.

**Theorem (`remembers_of_listInstalled`).** So after a listing the map has what is installed now,
and what has ever been installed. The two are the same if and only if nothing that was recorded
earlier is gone; and a declared package counts as missing if and only if no recorded tree has it. A
package that has been removed is still in the map (`not_reflects`).
-/

namespace Retrofit

variable {name : String} {tree : Dependencies} {w w' : Workspace} {s : Session}

namespace Session

/-! ## Trees that are recorded -/

/-- The tree that a listing records, if it succeeds. -/
def listed (s : Session) (w : Workspace) : Option Dependencies :=
  (s.resolver.list w.state.config w.files).toOption.map Dependency.dependencies

/-- The packages that an update records, if it is tried and succeeds. -/
def updated (s : Session) (w : Workspace) : Option Dependencies :=
  (s.updateAll.runOn w).1.toOption.join

theorem contains_listInstalled :
    (s.listInstalled.runOn w).2.state.packages.contains name = true ↔
      (∃ tree ∈ s.listed w, tree.Has name) ∨ w.state.packages.contains name = true := by
  rw [runOn_listInstalled, listed]
  cases s.resolver.list w.state.config w.files with
  | error error => simp [Except.toOption]
  | ok tree =>
    simp only [Except.toOption, Option.map_some, Option.mem_some, exists_eq_left']
    exact PackageMap.contains_flatten

theorem contains_updateAll :
    (s.updateAll.runOn w).2.state.packages.contains name = true ↔
      (∃ tree ∈ s.updated w, tree.Has name) ∨ w.state.packages.contains name = true := by
  unfold updated
  by_cases h : UpToDate w.state
  · rw [runOn_updateAll_of_upToDate h]
    simp [Except.toOption]
  · rw [runOn_updateAll h, tryUpdate]
    rcases s.resolver.update [] s.options.offline w.state.config w.files
        with ⟨error | changed, files⟩
    · simp [Except.toOption]
    · simp only [Except.toOption, Option.join_some, Option.mem_some, exists_eq_left']
      exact PackageMap.contains_flatten

/-! ## Histories -/

/-- The trees that have been recorded, and the workspace that was reached, with the options of a
project.
-/
inductive History (options : ProjectOptions) : List Dependencies → Workspace → Prop where
  /-- A new session has found out nothing. -/
  | start (files : Files) : History options [] { files }
  /-- Others change the files, and take the events. -/
  | between {trees w} (h : History options trees w) (files : Files) (events : List Event) :
      History options trees { w with files, events }
  | loadConfig {trees w} (h : History options trees w) (resolver : Resolver) (network : Network) :
      History options trees ((mk options resolver network).loadConfig.runOn w).2
  | loadManifest {trees w} (h : History options trees w) (resolver : Resolver) (network : Network) :
      History options trees ((mk options resolver network).loadManifest.runOn w).2
  | loadCatalog {trees w} (h : History options trees w) (resolver : Resolver) (network : Network) :
      History options trees ((mk options resolver network).loadCatalog.runOn w).2
  | listInstalled {trees w} (h : History options trees w) (resolver : Resolver)
      (network : Network) :
      History options (trees ++ ((mk options resolver network).listed w).toList)
        ((mk options resolver network).listInstalled.runOn w).2
  | updateAll {trees w} (h : History options trees w) (resolver : Resolver) (network : Network) :
      History options (trees ++ ((mk options resolver network).updated w).toList)
        ((mk options resolver network).updateAll.runOn w).2
  | patch {trees w} (h : History options trees w) (resolver : Resolver) (network : Network)
      (now : Nat) :
      History options trees (((mk options resolver network).patch now).runOn w).2

variable {options : ProjectOptions} {trees : List Dependencies} {resolver : Resolver}
  {network : Network}

/-- The names in the package map are those that some recorded tree has. -/
theorem History.contains_iff (h : History options trees w) :
    w.state.packages.contains name = true ↔ ∃ tree ∈ trees, tree.Has name := by
  induction h with
  | start files => simp
  | between h files events ih => exact ih
  | loadConfig h resolver network ih => exact ih
  | loadManifest h resolver network ih => exact ih
  | @loadCatalog trees w h resolver network ih =>
    rw [← ih, runOn_loadCatalog]
    cases (CatalogLocation.ofText options.patches options.root).load network w.files <;> rfl
  | listInstalled h resolver network ih =>
    rw [contains_listInstalled, ih]
    simp [or_and_right, exists_or, or_comm]
  | updateAll h resolver network ih =>
    rw [contains_updateAll, ih]
    simp [or_and_right, exists_or, or_comm]
  | patch h resolver network now ih =>
    rw [runOn_patch]
    exact ih

/-! ## Runs -/

/-- The stage leads from histories to histories. -/
def Continues {α : Type} (options : ProjectOptions) (stage : Stage α) : Prop :=
  ∀ trees w, History options trees w → ∃ more, History options (trees ++ more) (stage.runOn w).2

/-- A stage that records nothing. -/
theorem History.continues (h : History options trees w) :
    ∃ more, History options (trees ++ more) w :=
  ⟨[], (List.append_nil trees).symm ▸ h⟩

theorem Continues.bind {α β : Type} {stage : Stage α} {next : α → Stage β}
    (h : Continues options stage) (hnext : ∀ value, Continues options (next value)) :
    Continues options (stage >>= next) := by
  intro trees w hw
  obtain ⟨more, hmore⟩ := h trees w hw
  rw [Stage.runOn_bind]
  rcases hstage : stage.runOn w with ⟨error | value, left⟩ <;> rw [hstage] at hmore
  · exact ⟨more, hmore⟩
  · obtain ⟨last, hlast⟩ := hnext value _ left hmore
    exact ⟨more ++ last, List.append_assoc .. ▸ hlast⟩

theorem continues_updateIfMissing (options : ProjectOptions) (resolver : Resolver)
    (network : Network) :
    Continues options (mk options resolver network).updateIfMissing := by
  intro trees w hw
  rw [runOn_updateIfMissing]
  cases w.state.manifest.dependencyNames with
  | error flaw => exact hw.continues
  | ok declared =>
    dsimp only
    split
    · exact hw.continues
    · have hupdate := hw.updateAll resolver network
      rcases hstage :
        (mk options resolver network).updateAll.runOn w with ⟨error | _ | changed, left⟩ <;>
        rw [hstage] at hupdate
      · exact ⟨_, hupdate⟩
      · exact ⟨_, hupdate⟩
      · -- The warnings are events.
        exact ⟨_, hupdate.between left.files _⟩

theorem continues_resolve (options : ProjectOptions) (resolver : Resolver) (network : Network) :
    Continues options (mk options resolver network).resolve := by
  unfold resolve
  refine Continues.bind (fun _ _ h => (h.loadConfig resolver network).continues) fun _ => ?_
  refine Continues.bind (fun _ _ h => (h.loadManifest resolver network).continues) fun _ => ?_
  refine Continues.bind (fun _ _ h => (h.loadCatalog resolver network).continues) fun _ => ?_
  refine Continues.bind (fun _ _ h => ⟨_, h.listInstalled resolver network⟩) fun _ => ?_
  exact Continues.bind (continues_updateIfMissing options resolver network) fun _ _ _ h =>
    h.continues

/-- A whole run leads from histories to histories. -/
theorem continues_run (options : ProjectOptions) (resolver : Resolver) (network : Network)
    (now : Nat) :
    Continues options ((mk options resolver network).run now) :=
  Continues.bind (continues_resolve options resolver network) fun _ _ _ h =>
    (h.patch resolver network now).continues

/-! ## What a listing leaves -/

theorem lacking_eq_nil_iff {declared : List String} {state : RunState} :
    lacking declared state = [] ↔ ∀ name ∈ declared, state.packages.contains name = true := by
  simp [lacking, List.filter_eq_nil_iff]

/-- What a session takes for installed, if it has just listed a tree, and has recorded others
before. -/
structure Remembers (s : Session) (earlier : List Dependencies) (tree : Dependencies)
    (w : Workspace) :
    Prop where
  contains_iff : ∀ name,
    w.state.packages.contains name = true ↔ tree.Has name ∨ ∃ old ∈ earlier, old.Has name
  /-- The packages are those in the tree if and only if nothing is gone. -/
  reflects_iff : (∀ name, w.state.packages.contains name = true ↔ tree.Has name) ↔
    ∀ old ∈ earlier, ∀ name, old.Has name → tree.Has name
  /-- There is no update if every declared package is installed, or was installed before. -/
  skips : ∀ declared, w.state.manifest.dependencyNames = .ok declared →
    (∀ name ∈ declared, tree.Has name ∨ ∃ old ∈ earlier, old.Has name) →
    s.updateIfMissing.runOn w = (.ok none, w)
  /-- There is an update if a declared package is not installed, and was not installed before. -/
  updates : ∀ declared, w.state.manifest.dependencyNames = .ok declared →
    (∃ name ∈ declared, ¬ tree.Has name ∧ ∀ old ∈ earlier, ¬ old.Has name) →
    (s.updateIfMissing.runOn w).1 = (s.updateAll.runOn w).1 ∧
      (s.updateIfMissing.runOn w).2.state = (s.updateAll.runOn w).2.state ∧
      (s.updateIfMissing.runOn w).2.files = (s.updateAll.runOn w).2.files

/-- **What is taken for installed after a listing.** -/
theorem remembers_of_listInstalled {earlier : List Dependencies}
    (h : History s.options earlier w) (hlist : s.listInstalled.runOn w = (.ok (), w')) :
    ∃ tree, s.resolver.list w.state.config w.files = .ok tree ∧
      s.Remembers earlier tree.dependencies w' := by
  obtain ⟨options, resolver, network⟩ := s
  obtain ⟨tree, htree, -, -⟩ := exists_tree_of_listInstalled hlist
  have hlisted : (mk options resolver network).listed w = some tree.dependencies := by
    rw [listed, htree]
    rfl
  have hafter := h.listInstalled resolver network
  rw [hlisted, hlist] at hafter
  have hcontains : ∀ name, w'.state.packages.contains name = true ↔
      tree.dependencies.Has name ∨ ∃ old ∈ earlier, old.Has name := by
    intro name
    rw [hafter.contains_iff]
    simp [or_and_right, exists_or, or_comm]
  refine ⟨tree, htree, hcontains, ?_, ?_, ?_⟩
  · constructor
    · intro hreflects old hold name hname
      exact (hreflects name).mp ((hcontains name).mpr (.inr ⟨old, hold, hname⟩))
    · intro hgone name
      rw [hcontains]
      exact or_iff_left_of_imp fun ⟨old, hold, hname⟩ => hgone old hold name hname
  · intro declared hdeclared hall
    have hlacking : lacking declared w'.state = [] :=
      lacking_eq_nil_iff.mpr fun name hname => (hcontains name).mpr (hall name hname)
    rw [runOn_updateIfMissing, hdeclared]
    exact if_pos hlacking
  · rintro declared hdeclared ⟨name, hname, hnot, hold⟩
    have hlacking : lacking declared w'.state ≠ [] := by
      intro hempty
      rcases (hcontains name).mp (lacking_eq_nil_iff.mp hempty name hname)
          with hhas | ⟨old, hmem, hhas⟩
      · exact hnot hhas
      · exact hold old hmem hhas
    rw [runOn_updateIfMissing, hdeclared]
    dsimp only
    rw [if_neg hlacking]
    rcases (mk options resolver network).updateAll.runOn w' with ⟨error | _ | changed, left⟩ <;>
      exact ⟨rfl, rfl, rfl⟩

/-! ## A package that is removed -/

/-- A project that declares a package, and has it installed. -/
def complete : Files where
  nodes := [
    ("/bower.json", .file (Text.encode "\x7b\"dependencies\":\x7b\"a\":\"\"\x7d\x7d") 1),
    ("/bower_components", .directory 1),
    ("/bower_components/a", .directory 1),
    ("/bower_components/a/bower.json", .file (Text.encode "\x7b\x7d") 1)]
  current := []

/-- The project without the package. -/
def emptied : Files :=
  complete.remove "/bower_components/a/bower.json" 2

/-- A session that only reads what is installed. -/
def reader : Session where
  options := { root := "/" }
  resolver := .readOnly "/"

/-- A session has listed what is installed among some files, and then there are other files. -/
def afterListing (s : Session) (files later : Files) : Workspace :=
  { (s.listInstalled.runOn (s.loadManifest.runOn { files }).2).2 with files := later }

theorem history_afterListing (s : Session) (files later : Files) :
    History s.options (s.listed (s.loadManifest.runOn { files }).2).toList
      (s.afterListing files later) := by
  obtain ⟨options, resolver, network⟩ := s
  exact (((History.start files).loadManifest resolver network).listInstalled resolver
    network).between
    later _

/-- The package was listed, and is removed. -/
def removed : Workspace :=
  reader.afterListing complete emptied

/-- What has been listed. -/
def recorded : List Dependencies :=
  (reader.listed (reader.loadManifest.runOn { files := complete }).2).toList

/-- The workspace after what is left was listed. -/
def relisted : Workspace :=
  (reader.listInstalled.runOn removed).2

theorem relisted_lists :
    (reader.listInstalled.runOn removed).1 = .ok () ∧
      (reader.resolver.list removed.state.config removed.files).map
        (fun tree => tree.dependencies.visits.map Prod.fst) = .ok [] ∧
      relisted.state.manifest.dependencyNames = .ok ["a"] ∧
      relisted.state.packages.contains "a" = true := by
  decide +kernel

theorem runOn_removed : reader.listInstalled.runOn removed = (.ok (), relisted) := by
  rw [relisted]
  exact Stage.runOn_of_fst_eq relisted_lists.1

theorem exists_list_removed :
    ∃ tree, reader.resolver.list removed.state.config removed.files = .ok tree ∧
      ¬ tree.dependencies.Has "a" := by
  obtain ⟨-, hvisits, -⟩ := relisted_lists
  obtain ⟨tree, htree, hnone⟩ := map_eq_ok.mp hvisits
  refine ⟨tree, htree, fun hhas => ?_⟩
  obtain ⟨node, hnode⟩ := Dependencies.has_iff_exists_mem_visits.mp hhas
  rw [List.map_eq_nil_iff.mp hnone] at hnode
  cases hnode

theorem history_removed : History reader.options recorded removed := by
  rw [recorded, removed]
  exact history_afterListing reader complete emptied

/-- The package that is gone keeps the session from an update. -/
theorem remembers_removed :
    History reader.options recorded removed ∧
      reader.listInstalled.runOn removed = (.ok (), relisted) ∧
      relisted.state.manifest.dependencyNames = .ok ["a"] ∧
      reader.updateIfMissing.runOn relisted = (.ok none, relisted) := by
  obtain ⟨-, -, hdeclared, hcontains⟩ := relisted_lists
  obtain ⟨tree, -, h⟩ := remembers_of_listInstalled history_removed runOn_removed
  refine ⟨history_removed, runOn_removed, hdeclared, h.skips ["a"] hdeclared fun name hname => ?_⟩
  rw [List.mem_singleton.mp hname]
  exact (h.contains_iff "a").mp hcontains

/-- **A package that is gone may still be in the map.** -/
theorem not_reflects :
    ¬ ∀ (s : Session) (earlier : List Dependencies) (w w' : Workspace) (tree : Dependency),
      History s.options earlier w → s.listInstalled.runOn w = (.ok (), w') →
      s.resolver.list w.state.config w.files = .ok tree →
      ∀ name, w'.state.packages.contains name = true ↔ tree.dependencies.Has name := by
  intro h
  obtain ⟨-, -, -, hcontains⟩ := relisted_lists
  obtain ⟨tree, htree, hnot⟩ := exists_list_removed
  exact hnot ((h reader recorded removed relisted tree history_removed runOn_removed htree "a").mp
    hcontains)

end Session

end Retrofit

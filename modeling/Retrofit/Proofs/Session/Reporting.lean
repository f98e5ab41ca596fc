import Retrofit.Proofs.Session.Update

/-!
# What an update reports

**Theorem (`Session.reportsChanges`).** Let two trees be scanned from two states of the installed
packages. The names in the answer of the comparison are those that the second tree shows, and that
the first one does not show, or shows with another version. Each has the metadata of the second
tree. Nothing is reported between equal states, and an update of a session has one event for each
name in the answer, in the order of the names.

A name may stand in a tree many times. But a scan finds the same metadata for it each time
(`Dependency.coherent_of_scan`), so it does not matter which of the nodes a comparison looks at.
-/

namespace Retrofit

open Dependency

variable {name root root' : String} {node : Dependency} {info old : PackageMeta}
  {files left : Files} {config config' : ResolverConfig} {tree before after changed : Dependencies}
  {first second : Dependency}

namespace Dependencies

/-- The package stands somewhere in the tree, is not missing there, and has these metadata. -/
def Shows (tree : Dependencies) (name : String) (info : PackageMeta) : Prop :=
  ∃ node, Occurs name node tree ∧ node.missing = false ∧ node.info = info

/-- The tree holds the packages that have changed between two others. -/
structure ReportsChanges (before after changed : Dependencies) : Prop where
  /-- The names are those that are new, or have another version; no version counts as one. -/
  key_iff : ∀ name, name ∈ Dictionary.keys changed ↔ ∃ info, after.Shows name info ∧
    ((∀ old, ¬ before.Shows name old) ∨ ∃ old, before.Shows name old ∧ old.version ≠ info.version)
  /-- Each is installed, and has the metadata that it has everywhere in the second tree. -/
  entry : ∀ {name node}, (name, node) ∈ changed → after.Shows name node.info ∧
    node.missing = false ∧ ∀ info, after.Shows name info → info = node.info
  /-- Each stands there once, and they are in the order of the names. -/
  inOrder : (Dictionary.keys changed).Pairwise (· < ·)
  /-- Nothing has changed between equal trees. -/
  unchanged : before = after → changed = []

/-- In a scanned tree a package is shown if a walk comes to it, since nothing stands below missing
nodes. -/
theorem shows_iff_of_scan (h : scan root config files = .ok first) :
    first.dependencies.Shows name info ↔
      ∃ node, Present name node first.dependencies ∧ node.info = info := by
  obtain ⟨manifest, -, htree⟩ := describeBelow_of_scan h
  unfold Shows
  simp only [present_iff_occurs fun _ _ => dependencies_of_missing htree, and_assoc]

/-- A scanned tree shows one metadata for each package. -/
theorem Shows.unique (h : scan root config files = .ok first)
    (hinfo : first.dependencies.Shows name info)
    (hold : first.dependencies.Shows name old) : info = old := by
  obtain ⟨node, hnode, rfl⟩ := (shows_iff_of_scan h).mp hinfo
  obtain ⟨other, hother, rfl⟩ := (shows_iff_of_scan h).mp hold
  exact coherent_of_scan h hnode hother

theorem mem_keys_changedSince {versions : Dictionary (Option String)} :
    name ∈ Dictionary.keys (changedSince versions tree) ↔ ∃ node, Present name node tree ∧
      Dictionary.get? name versions ≠ some node.info.version := by
  constructor
  · intro h
    obtain ⟨⟨other, node⟩, hentry, rfl⟩ := List.mem_map.mp h
    exact ⟨node, present_of_mem_changedSince hentry⟩
  · rintro ⟨node, hnode, hchanged⟩
    obtain ⟨last, hlast⟩ := exists_mem_changedSince hnode hchanged
    exact List.mem_map_of_mem hlast

/-- A version is not the recorded one if no version is recorded, or another one. -/
theorem get?_versions_ne_iff (hcoherent : before.Coherent) {version : Option String} :
    Dictionary.get? name before.versions ≠ some version ↔
      (∀ node, ¬ Present name node before) ∨
        ∃ node, Present name node before ∧ node.info.version ≠ version := by
  constructor
  · intro h
    by_cases hnone : ∃ node, Present name node before
    · obtain ⟨node, hnode⟩ := hnone
      refine .inr ⟨node, hnode, fun hversion => h ?_⟩
      rw [get?_versions hcoherent hnode, hversion]
    · exact .inl (not_exists.mp hnone)
  · rintro (hnone | ⟨node, hnode, hversion⟩) heq
    · obtain ⟨node, hnode, -⟩ := exists_present_of_get?_versions heq
      exact hnone node hnode
    · rw [get?_versions hcoherent hnode] at heq
      exact hversion (Option.some.inj heq)

/-- The comparison of two scanned trees finds what has changed. -/
theorem reportsChanges_changedSince (hfirst : scan root config files = .ok first)
    (hsecond : scan root' config' left = .ok second) :
    ReportsChanges first.dependencies second.dependencies
      (changedSince first.dependencies.versions second.dependencies) := by
  constructor
  case key_iff =>
    intro name
    rw [mem_keys_changedSince]
    simp only [shows_iff_of_scan hfirst, shows_iff_of_scan hsecond,
      get?_versions_ne_iff (coherent_of_scan hfirst)]
    grind
  case entry =>
    intro name node hmem
    have hpresent := (present_of_mem_changedSince hmem).1
    have hshows := (shows_iff_of_scan hsecond).mpr ⟨node, hpresent, rfl⟩
    exact ⟨hshows, hpresent.missing, fun info hinfo => hinfo.unique hsecond hshows⟩
  case inOrder => exact Dictionary.pairwise_keys_ofList _
  case unchanged =>
    intro heq
    rw [heq]
    exact changedSince_versions_self (coherent_of_scan hsecond)

end Dependencies

/-- The update of a package manager that succeeds is the comparison of what is installed before and
after. -/
theorem Resolver.updateBy_eq {manager : PackageManager} {names : List String} {offline : Bool}
    {complaint : List UInt8} (hfirst : scan root config files = .ok first)
    (hrun : manager.run (updateArguments names offline config) files =
      (.finished true complaint, left))
    (hsecond : scan root config left = .ok second) :
    updateBy manager root names offline config files =
      (.ok (Dependencies.changedSince first.dependencies.versions second.dependencies), left) := by
  have hcommand : command manager (updateArguments names offline config) files =
      (.ok (), left) := by
    rw [command, hrun]
  unfold updateBy
  simp only [hfirst, hcommand, hsecond, Except.map]

namespace Session

open Dependencies

/-- **An update reports what has changed.** The comparison of two states finds it, and an update
between the states has one event for each package that the comparison finds. -/
theorem reportsChanges (hfirst : scan root config files = .ok first)
    (hsecond : scan root' config' left = .ok second) :
    ReportsChanges first.dependencies second.dependencies
      (changedSince first.dependencies.versions second.dependencies) ∧
    ∀ (s : Session) (w : Workspace) (manager : PackageManager) (complaint : List UInt8),
      s.resolver = .byManager manager root → w.files = files → w.state.config = config →
      ¬ UpToDate w.state →
      manager.run (Resolver.updateArguments [] s.options.offline config) files =
        (.finished true complaint, left) →
      scan root config left = .ok second →
      (s.updateAll.runOn w).1 =
          .ok (some (changedSince first.dependencies.versions second.dependencies)) ∧
        (s.updateAll.runOn w).2.events = w.events ++ .section "Updating packages" ::
          (changedSince first.dependencies.versions second.dependencies).map installedEvent := by
  refine ⟨reportsChanges_changedSince hfirst hsecond, ?_⟩
  rintro s w manager complaint hresolver rfl rfl hdue hrun hleft
  have hanswer : s.resolver.update [] s.options.offline w.state.config w.files =
      (.ok (changedSince first.dependencies.versions second.dependencies), left) := by
    rw [hresolver]
    exact Resolver.updateBy_eq hfirst hrun hleft
  rw [runOn_updateAll hdue, tryUpdate, hanswer]
  exact ⟨rfl, by simp⟩

/-! ## A package with another version, and a new one -/

/-- A project that declares three packages, with the metadata of those that are installed. -/
def declaringThree (installed : List (String × String)) : Files where
  nodes := [
    ("/bower.json", .file (Text.encode
      "\x7b\"dependencies\":\x7b\"a\":\"\",\"b\":\"\",\"c\":\"\"\x7d\x7d") 1),
    ("/bower_components", .directory 1)] ++
    installed.flatMap fun (name, info) => [
      ("/bower_components/" ++ name, .directory 1),
      ("/bower_components/" ++ name ++ "/bower.json", .file (Text.encode info) 1)]
  current := []

/-- Two packages, one of which needs the other. -/
def outdated : Files :=
  declaringThree [
    ("a", "\x7b\"version\":\"1.0.0\",\"dependencies\":\x7b\"b\":\"\"\x7d\x7d"),
    ("b", "\x7b\x7d")]

/-- One of them has another version, and the third package is installed. -/
def upgraded : Files :=
  declaringThree [
    ("a", "\x7b\"version\":\"2.0.0\",\"dependencies\":\x7b\"b\":\"\"\x7d\x7d"),
    ("b", "\x7b\x7d"), ("c", "\x7b\x7d")]

/-- A package manager that leaves these files. -/
def upgrading : PackageManager where
  name := "bower"
  run _ _ := (.finished true [], upgraded)

/-- A session with that package manager. -/
def upgrader : Session where
  options := { root := "/" }
  resolver := .byManager upgrading "/"

theorem scan_upgraded :
    (do return (changedSince (← scan "/" {} outdated).dependencies.versions
      (← scan "/" {} upgraded).dependencies).map installedEvent) =
        .ok [.installed "a" "2.0.0", .installed "c" "0.0.0"] := by
  decide +kernel

/-- The package that has kept its version, namely none, is not reported. -/
theorem reportsChanges_upgraded :
    ∃ first second, scan "/" {} outdated = .ok first ∧ scan "/" {} upgraded = .ok second ∧
      ReportsChanges first.dependencies second.dependencies
        (changedSince first.dependencies.versions second.dependencies) ∧
      (upgrader.updateAll.runOn { files := outdated }).2.events =
        [.section "Updating packages", .installed "a" "2.0.0", .installed "c" "0.0.0"] := by
  have hmap := scan_upgraded
  cases hfirst : scan "/" {} outdated with
  | error => simp [hfirst, error_bind] at hmap
  | ok first =>
    cases hsecond : scan "/" {} upgraded with
    | error => simp [hfirst, hsecond, ok_bind] at hmap
    | ok second =>
      simp only [hfirst, hsecond, ok_bind, pure_eq_ok, Except.ok.injEq] at hmap
      obtain ⟨hreports, hsession⟩ := reportsChanges hfirst hsecond
      have hdue : ¬ UpToDate ({ files := outdated } : Workspace).state := by
        intro h
        cases h
      obtain ⟨-, hevents⟩ :=
        hsession upgrader { files := outdated } upgrading [] rfl rfl rfl hdue rfl hsecond
      rw [hmap] at hevents
      exact ⟨first, second, rfl, rfl, hreports, hevents⟩

end Session

end Retrofit

import Mathlib.Control.Monad.Basic
import Retrofit.Proofs.Resolver.Changes
import Retrofit.Proofs.Resolver.Scan
import Retrofit.Proofs.Session.Stages
import Retrofit.Resolver.Manager

/-!
# Records after an update by a package manager

The installed packages are listed, a package manager changes the files, and the packages that it has
changed get new records.

**Theorem (`Session.refreshed_of_updateAll`).** However the manager changes the files, a package has
the record of its new metadata afterwards if it is new, has another version, or stands below a
package that is or has. Otherwise it has the record of its old metadata, and versions alone do not
tell whether that is the same one.

So a package whose entry files change while its version does not may keep the record that it had
(`Session.not_current`).
-/

namespace Retrofit

variable {files left : Files} {root : String} {config : ResolverConfig} {changed : Dependencies}
  {names : List String} {offline : Bool} {manager : PackageManager}

/-- An update that succeeds has compared what was installed before and after. -/
theorem Resolver.exists_scans_of_updateBy
    (h : updateBy manager root names offline config files = (.ok changed, left)) :
    ∃ before after, Dependency.scan root config files = .ok before ∧
      Dependency.scan root config left = .ok after ∧
      changed = Dependencies.changedSince before.dependencies.versions after.dependencies := by
  unfold updateBy at h
  cases hbefore : Dependency.scan root config files with
  | error error =>
    rw [hbefore] at h
    cases h
  | ok before =>
    rw [hbefore] at h
    dsimp only at h
    rcases hrun : command manager (updateArguments names offline config) files with
      ⟨error | _, files'⟩ <;> rw [hrun] at h
    · cases h
    · obtain ⟨hchanged, rfl⟩ := Prod.mk.inj h
      cases hafter : Dependency.scan root config files' with
      | error error =>
        rw [hafter] at hchanged
        cases hchanged
      | ok after =>
        rw [hafter] at hchanged
        cases hchanged
        exact ⟨before, after, rfl, rfl, rfl⟩

namespace Session

open Dependencies

variable {s : Session} {w w₁ w₂ : Workspace} {result : Option Dependencies}

/-- **What an update leaves of the records.** If the update is not tried, nothing has changed since
the listing. -/
theorem refreshed_of_updateAll (hresolver : s.resolver = .byManager manager root)
    (hlist : s.listInstalled.runOn w = (.ok (), w₁))
    (hupdate : s.updateAll.runOn w₁ = (.ok result, w₂)) :
    ∃ before after, Dependency.scan root w.state.config w.files = .ok before ∧
      Dependency.scan root w.state.config w₂.files = .ok after ∧
      Refreshed w.state.catalog w.state.directory before.dependencies after.dependencies
        (result.getD []) w₂.state.packages := by
  obtain ⟨before, hbefore, hstate, hfiles⟩ := exists_tree_of_listInstalled hlist
  rw [hresolver] at hbefore
  have hscan : Dependency.scan root w.state.config w.files = .ok before := hbefore
  have hcoherent : before.dependencies.Coherent := Dependency.coherent_of_scan hscan
  rcases exists_changed_of_updateAll hupdate with
    ⟨rfl, rfl⟩ | ⟨changed, left, hanswer, rfl, rfl, hafter⟩
  · -- The records of a listing are those of an update that changes nothing.
    refine ⟨before, before, hscan, hfiles ▸ hscan, ?_⟩
    have hrefreshed := refreshed w.state.catalog w.state.directory hcoherent hcoherent
      w.state.packages
    rw [recordChanges, changedSince_versions_self hcoherent] at hrefreshed
    rw [hstate]
    exact hrefreshed
  · rw [hresolver] at hanswer
    obtain ⟨before', after, hbefore', hscan', rfl⟩ := Resolver.exists_scans_of_updateBy hanswer
    have hconfig : w₁.state.config = w.state.config := by rw [hstate]; rfl
    rw [hconfig, hfiles, hscan, Except.ok.injEq] at hbefore'
    subst hbefore'
    rw [hconfig] at hscan'
    have hcoherent' : after.dependencies.Coherent := Dependency.coherent_of_scan hscan'
    refine ⟨before, after, hscan, hscan', ?_⟩
    have hrefreshed := refreshed w.state.catalog w.state.directory hcoherent hcoherent'
      w.state.packages
    rw [hafter, hstate]
    exact hrefreshed

/-! ## A package with another entry file -/

/-- A project with a package that has the given entry file, and no version. -/
def withMain (main : String) : Files where
  nodes := [
    ("/bower.json", .file (Text.encode "\x7b\"dependencies\":\x7b\"a\":\"\"\x7d\x7d") 1),
    ("/bower_components", .directory 1),
    ("/bower_components/a", .directory 1),
    ("/bower_components/a/bower.json",
      .file (Text.encode ("\x7b\"main\":\"" ++ main ++ "\"\x7d")) 1)]
  current := []

/-- A package manager that leaves the package with another entry file. -/
def replacing : PackageManager where
  name := "bower"
  run _ _ := (.finished true [], withMain "b.js")

/-- A session with that package manager. -/
def replacer : Session where
  options := { root := "/" }
  resolver := .byManager replacing "/"

/-- What is there before the update. -/
def beforeReplacing : Workspace :=
  (replacer.listInstalled.runOn { files := withMain "a.js" }).2

/-- What is there after the update. -/
def replaced : Workspace :=
  (replacer.updateAll.runOn beforeReplacing).2

theorem replaced_keeps :
    (replacer.listInstalled.runOn { files := withMain "a.js" }).1 = .ok () ∧
      (replacer.updateAll.runOn beforeReplacing).1.map Option.isSome = .ok true ∧
      ((Dependency.scan "/" {} replaced.files).map fun tree =>
        tree.dependencies.visits.map fun visited => (visited.1, visited.2.info)) =
          .ok [("a", { main := some (.one "b.js") })] ∧
      replaced.state.packages.get? "a" = some ⟨Tag.none, ["a.js"], none⟩ := by
  decide +kernel

theorem runOn_beforeReplacing :
    replacer.listInstalled.runOn { files := withMain "a.js" } = (.ok (), beforeReplacing) := by
  rw [beforeReplacing]
  exact Stage.runOn_of_fst_eq replaced_keeps.1

theorem exists_runOn_replaced :
    ∃ result, replacer.updateAll.runOn beforeReplacing = (.ok result, replaced) := by
  obtain ⟨-, htried, -⟩ := replaced_keeps
  obtain ⟨result, hresult, -⟩ := map_eq_ok.mp htried
  rw [replaced]
  exact ⟨result, Stage.runOn_of_fst_eq hresult⟩

theorem exists_present_replaced :
    ∃ after node, Dependency.scan "/" {} replaced.files = .ok after ∧
      Dependency.Present "a" node after.dependencies ∧
        node.info = { main := some (.one "b.js") } := by
  obtain ⟨-, -, hvisits, -⟩ := replaced_keeps
  obtain ⟨after, hafter, hvisits⟩ := map_eq_ok.mp hvisits
  have hmem : ("a", { main := some (.one "b.js") }) ∈
      after.dependencies.visits.map fun visited => (visited.1, visited.2.info) :=
    hvisits ▸ List.mem_singleton_self _
  obtain ⟨⟨name, node⟩, hnode, heq⟩ := List.mem_map.mp hmem
  obtain ⟨rfl, hinfo⟩ := Prod.mk.inj heq
  exact ⟨after, node, hafter, Dependency.mem_visits.mp hnode, hinfo⟩

/-- The record that the new metadata make is another one. -/
theorem record_replaced_ne :
    replaced.state.packages.get? "a" ≠
      some (PackageRecord.ofInfo [] "bower_components" "a" { main := some (.one "b.js") }) := by
  obtain ⟨-, -, -, hrecord⟩ := replaced_keeps
  rw [hrecord]
  decide +kernel

/-- The package keeps its record, since the update does not take it up. -/
theorem refreshed_of_updateAll_replaced :
    replacer.resolver = .byManager replacing "/" ∧
      replacer.listInstalled.runOn { files := withMain "a.js" } = (.ok (), beforeReplacing) ∧
      ∃ result, replacer.updateAll.runOn beforeReplacing = (.ok result, replaced) ∧
        ¬ (result.getD []).Has "a" := by
  obtain ⟨result, hresult⟩ := exists_runOn_replaced
  obtain ⟨before, after, -, hafter, h⟩ := refreshed_of_updateAll rfl runOn_beforeReplacing hresult
  obtain ⟨after', node, hafter', hnode, hinfo⟩ := exists_present_replaced
  obtain rfl : after' = after := Except.ok.inj (hafter'.symm.trans hafter)
  refine ⟨rfl, runOn_beforeReplacing, result, hresult, fun hhas => ?_⟩
  have hrecord := h.renewed hnode hhas
  rw [hinfo] at hrecord
  exact record_replaced_ne hrecord

/-- **A package may keep the record of metadata that it does not have any more.** -/
theorem not_current :
    ¬ ∀ (s : Session) (manager : PackageManager) (root : String) (w w₁ w₂ : Workspace)
        (result : Option Dependencies) (after : Dependency),
      s.resolver = .byManager manager root → s.listInstalled.runOn w = (.ok (), w₁) →
      s.updateAll.runOn w₁ = (.ok result, w₂) →
      Dependency.scan root w.state.config w₂.files = .ok after →
      ∀ name node, Dependency.Present name node after.dependencies →
        w₂.state.packages.get? name = some (PackageRecord.ofInfo w.state.catalog
          w.state.directory name node.info) := by
  intro h
  obtain ⟨result, hresult⟩ := exists_runOn_replaced
  obtain ⟨after, node, hafter, hnode, hinfo⟩ := exists_present_replaced
  have hrecord :=
    h replacer replacing "/" _ _ _ result after rfl runOn_beforeReplacing hresult hafter "a"
    node hnode
  rw [hinfo] at hrecord
  exact record_replaced_ne hrecord

end Session

end Retrofit

import Retrofit.Proofs.Dictionary
import Retrofit.Proofs.Package.Map
import Retrofit.Resolver.Changes

/-!
# Records after a comparison

After an update only the packages get new records that have changed, together with what stands below
them. Changes are found by versions.

**Theorem (`Dependencies.refreshed`).** A package that is new, or has another version, has a record
of its new metadata. A package with the version that it had has one as well if it stands below a
changed one; if not, it keeps the record of its old metadata. So its record is the right one if and
only if it stands in the answer, or its old and new metadata make the same record.
-/

namespace Retrofit

open Dependency

variable {name : String} {node old : Dependency} {before after tree : Dependencies}
  {versions : Dictionary (Option String)} {version : Option String}
  {catalog : Catalog} {directory : String}

/-- A record depends on the version and the entry files. -/
theorem PackageRecord.ofInfo_congr {info info' : PackageMeta}
    (hversion : info.version = info'.version) (hmain : info.main = info'.main) :
    ofInfo catalog directory name info = ofInfo catalog directory name info' := by
  rw [ofInfo, ofInfo, hversion, hmain]

namespace Dependencies

/-! ## What a comparison finds -/

theorem exists_present_of_get?_versions (h : Dictionary.get? name tree.versions = some version) :
    ∃ node, Present name node tree ∧ node.info.version = version := by
  have hmem := Dictionary.mem_of_mem_ofList (Dictionary.mem_of_get? h)
  obtain ⟨⟨other, node⟩, hvisit, heq⟩ := List.mem_map.mp hmem
  obtain ⟨rfl, rfl⟩ := Prod.mk.inj heq
  exact ⟨node, mem_visits.mp hvisit, rfl⟩

theorem get?_versions (hcoherent : tree.Coherent) (h : Present name node tree) :
    Dictionary.get? name tree.versions = some node.info.version := by
  have hpair : (name, node.info.version) ∈ tree.visits.map fun visited =>
      (visited.1, visited.2.info.version) :=
    List.mem_map_of_mem (mem_visits.mpr h)
  obtain ⟨version, hget, -⟩ := Dictionary.exists_get?_ofList hpair
  obtain ⟨other, hother, rfl⟩ := exists_present_of_get?_versions hget
  rw [hcoherent h hother]
  exact hget

/-- What stands in the answer has a version that it did not have. -/
theorem present_of_mem_changedSince (h : (name, node) ∈ changedSince versions tree) :
    Present name node tree ∧ Dictionary.get? name versions ≠ some node.info.version := by
  obtain ⟨hvisit, hchanged⟩ := List.mem_filter.mp (Dictionary.mem_of_mem_ofList h)
  exact ⟨mem_visits.mp hvisit, of_decide_eq_true hchanged⟩

/-- A package is in the answer if it did not have this version. -/
theorem exists_mem_changedSince (h : Present name node tree)
    (hchanged : Dictionary.get? name versions ≠ some node.info.version) :
    ∃ last, (name, last) ∈ changedSince versions tree := by
  have hpair : (name, node) ∈ tree.visits.filter fun visited =>
      Dictionary.get? visited.1 versions ≠ some visited.2.info.version :=
    List.mem_filter.mpr ⟨mem_visits.mpr h, decide_eq_true hchanged⟩
  obtain ⟨last, hget, -⟩ := Dictionary.exists_get?_ofList hpair
  exact ⟨last, Dictionary.mem_of_get? hget⟩

theorem has_changedSince (h : Present name node tree)
    (hchanged : Dictionary.get? name versions ≠ some node.info.version) :
    (changedSince versions tree).Has name := by
  obtain ⟨last, hlast⟩ := exists_mem_changedSince h hchanged
  exact ⟨last, .here hlast (present_of_mem_changedSince hlast).1.missing⟩

/-- What is in the answer is in the tree. -/
theorem present_of_changedSince (h : Present name node (changedSince versions tree)) :
    Present name node tree := by
  cases h with
  | here h _ => exact (present_of_mem_changedSince h).1
  | deeper h _ hbelow => exact (present_of_mem_changedSince h).1.descend hbelow

/-- Nothing changes from a tree to itself. -/
theorem changedSince_versions_self (hcoherent : tree.Coherent) :
    changedSince tree.versions tree = [] := by
  have hnone : tree.visits.filter (fun visited =>
      Dictionary.get? visited.1 tree.versions ≠ some visited.2.info.version) = [] := by
    rw [List.filter_eq_nil_iff]
    intro visited hvisited
    simp [get?_versions hcoherent (mem_visits.mp hvisited)]
  rw [changedSince, hnone]
  rfl

/-! ## Records -/

theorem get?_flatten_of_present (hcoherent : tree.Coherent) (h : Present name node tree)
    (map : PackageMap) :
    (map.flatten catalog directory tree).get? name =
      some (PackageRecord.ofInfo catalog directory name node.info) :=
  PackageMap.get?_flatten_of_mem map (mem_visits.mpr h) fun _ hother =>
    hcoherent (mem_visits.mp hother) h

/-- The map after the packages in `before` and then those that have changed were recorded. -/
def recordChanges (catalog : Catalog) (directory : String) (before after : Dependencies)
    (map : PackageMap) : PackageMap :=
  (map.flatten catalog directory before).flatten catalog directory
    (changedSince before.versions after)

theorem get?_recordChanges_of_has (hafter : after.Coherent) (h : Present name node after)
    (hhas : (changedSince before.versions after).Has name) (map : PackageMap) :
    (recordChanges catalog directory before after map).get? name =
      some (PackageRecord.ofInfo catalog directory name node.info) := by
  obtain ⟨other, hother⟩ := hhas
  have hcoherent : (changedSince before.versions after).Coherent := fun h h' =>
    hafter (present_of_changedSince h) (present_of_changedSince h')
  rw [recordChanges, get?_flatten_of_present hcoherent hother,
    hafter (present_of_changedSince hother) h]

theorem get?_recordChanges_of_not_has (hbefore : before.Coherent) (h : Present name old before)
    (hnot : ¬ (changedSince before.versions after).Has name) (map : PackageMap) :
    (recordChanges catalog directory before after map).get? name =
      some (PackageRecord.ofInfo catalog directory name old.info) := by
  have hnone : ∀ node, (name, node) ∉ (changedSince before.versions after).visits :=
    fun node hmem =>
    hnot ⟨node, mem_visits.mp hmem⟩
  rw [recordChanges, PackageMap.get?_flatten_of_notMem _ hnone, get?_flatten_of_present hbefore h]

/-- How the records of the packages in a tree `after` compare with their metadata there, if the
packages in `before` had records of theirs, and those in `changed` have got new ones. -/
structure Refreshed (catalog : Catalog) (directory : String) (before after changed : Dependencies)
    (packages : PackageMap) : Prop where
  /-- What is new, or has another version, is taken up. -/
  takesUp : ∀ {name node}, Present name node after →
    (∀ old, Present name old before → old.info.version ≠ node.info.version) → changed.Has name
  /-- What is taken up has the record of its metadata. -/
  renewed : ∀ {name node}, Present name node after → changed.Has name →
    packages.get? name = some (PackageRecord.ofInfo catalog directory name node.info)
  /-- What is not has the version that it had, and keeps the record of the metadata that it had. -/
  kept : ∀ {name node}, Present name node after → ¬ changed.Has name →
    ∃ old, Present name old before ∧ old.info.version = node.info.version ∧
      packages.get? name = some (PackageRecord.ofInfo catalog directory name old.info)
  /-- So the record of a package that had one is right if and only if the package is taken up, or
  its metadata make the record that they made before. -/
  current_iff : ∀ {name node old}, Present name node after → Present name old before →
    (packages.get? name = some (PackageRecord.ofInfo catalog directory name node.info) ↔
      changed.Has name ∨ PackageRecord.ofInfo catalog directory name old.info =
        PackageRecord.ofInfo catalog directory name node.info)
  /-- In particular it is right if the package has the entry files that it had. -/
  current_of_main : ∀ {name node old}, Present name node after → Present name old before →
    old.info.main = node.info.main →
    packages.get? name = some (PackageRecord.ofInfo catalog directory name node.info)

/-- **What an update leaves.** -/
theorem refreshed (catalog : Catalog) (directory : String) (hbefore : before.Coherent)
    (hafter : after.Coherent) (map : PackageMap) :
    Refreshed catalog directory before after (changedSince before.versions after)
      (recordChanges catalog directory before after map) := by
  have hkept : ∀ {name node}, Present name node after →
      ¬ (changedSince before.versions after).Has name →
      ∃ old, Present name old before ∧ old.info.version = node.info.version := by
    intro name node hnode hnot
    have hsame : Dictionary.get? name before.versions = some node.info.version :=
      Classical.byContradiction fun hchanged => hnot (has_changedSince hnode hchanged)
    exact exists_present_of_get?_versions hsame
  constructor
  case takesUp =>
    intro name node hnode hchanged
    refine has_changedSince hnode fun hsame => ?_
    obtain ⟨old, hold, hversion⟩ := exists_present_of_get?_versions hsame
    exact hchanged old hold hversion
  case renewed =>
    intro name node hnode hhas
    exact get?_recordChanges_of_has hafter hnode hhas map
  case kept =>
    intro name node hnode hnot
    obtain ⟨old, hold, hversion⟩ := hkept hnode hnot
    exact ⟨old, hold, hversion, get?_recordChanges_of_not_has hbefore hold hnot map⟩
  case current_iff =>
    intro name node old hnode hold
    by_cases hhas : (changedSince before.versions after).Has name
    · exact iff_of_true (get?_recordChanges_of_has hafter hnode hhas map) (.inl hhas)
    · rw [get?_recordChanges_of_not_has hbefore hold hhas map, Option.some.injEq]
      exact (or_iff_right hhas).symm
  case current_of_main =>
    intro name node old hnode hold hmain
    by_cases hhas : (changedSince before.versions after).Has name
    · exact get?_recordChanges_of_has hafter hnode hhas map
    · obtain ⟨old', hold', hversion⟩ := hkept hnode hhas
      rw [hbefore hold' hold] at hversion
      rw [get?_recordChanges_of_not_has hbefore hold hhas map,
        PackageRecord.ofInfo_congr hversion hmain]

end Dependencies

end Retrofit

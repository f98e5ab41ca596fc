import Retrofit.Patch.Job
import Retrofit.Proofs.Catalog.Reading
import Retrofit.Proofs.Package.Files
import Retrofit.Proofs.Package.Map

/-!
# Patched files and selected patches

**Theorem (`PackageMap.jobs_selected`).** If a catalog was read from a text, the jobs of a package
are those for the keys of the patch set that is selected for its version, `_add` apart, each with
the transforms under its key. They stand in the order of the file list, and a package without a
patch set has none.

A key is never lost, since every key that is not yet listed is put into the file list
(`PackageRecord.mem_mergePatches`). No job is invented, since a file is patched only under its own
key, and the key `_add` holds no transforms.
-/

namespace Retrofit

variable {catalog : Catalog} {set : PatchSet} {entry : String × FilePatch}
  {name directory file : String} {files : List String} {info : PackageMeta}

/-- Whether the patches for a version of a package have a key for the file. The key `_add` is
none. -/
def Catalog.patchesFile (catalog : Catalog) (name version file : String) : Bool :=
  (catalog.patchesFor? name version).any fun set =>
    set.keys.contains file && file != PatchSet.addKey

theorem Catalog.patchesFile_eq_true_iff {version : String} :
    catalog.patchesFile name version file = true ↔
      ∃ set, catalog.patchesFor? name version = some set ∧
      file ∈ set.keys ∧ file ≠ PatchSet.addKey := by
  simp [patchesFile, Option.any_eq_true]

namespace PackageRecord

/-! ## The file list -/

theorem mem_mergeEntry :
    file ∈ mergeEntry files entry ↔ file ∈ files ∨ (∃ added, entry.2 = .add added ∧ file ∈ added) ∨
      ∃ steps, entry = (file, .transforms steps) := by
  obtain ⟨key, patch⟩ := entry
  cases patch with
  | add added => simp [mergeEntry]
  | transforms steps =>
    rw [mergeEntry]
    split_ifs with hmem
    · constructor
      · exact .inl
      · rintro (h | ⟨added, hadded, -⟩ | ⟨steps, heq⟩)
        · exact h
        · cases hadded
        · cases heq
          exact hmem
    · simp [eq_comm]

theorem adds_cons {rest : List (String × FilePatch)} :
    PatchSet.Adds ⟨entry :: rest⟩ file ↔
      (∃ added, entry.2 = .add added ∧ file ∈ added) ∨ PatchSet.Adds ⟨rest⟩ file := by
  constructor
  · rintro ⟨key, added, hmem, hfile⟩
    rcases List.mem_cons.mp hmem with rfl | hmem
    · exact .inl ⟨added, rfl, hfile⟩
    · exact .inr ⟨key, added, hmem, hfile⟩
  · rintro (⟨added, hadded, hfile⟩ | ⟨key, added, hmem, hfile⟩)
    · exact ⟨entry.1, added, hadded ▸ List.mem_cons_self .., hfile⟩
    · exact ⟨key, added, List.mem_cons_of_mem entry hmem, hfile⟩

/-- The files of a package are those it had, those that the patch set adds, and those that it
patches. -/
theorem mem_mergePatches :
    file ∈ mergePatches files set ↔
      file ∈ files ∨ set.Adds file ∨ ∃ steps, (file, .transforms steps) ∈ set.entries := by
  obtain ⟨entries⟩ := set
  unfold mergePatches
  induction entries generalizing files with
  | nil => simp [PatchSet.Adds]
  | cons first rest ih =>
    have hpatched : (∃ steps, (file, FilePatch.transforms steps) ∈ first :: rest) ↔
        (∃ steps, first = (file, .transforms steps)) ∨
          ∃ steps, (file, .transforms steps) ∈ rest := by
      simp only [List.mem_cons, exists_or, eq_comm]
    rw [List.foldl_cons, ih, mem_mergeEntry, adds_cons, hpatched]
    simp only [or_assoc, or_left_comm]

/-! ## The patched files -/

theorem patches_ofInfo (catalog : Catalog) (directory name : String) (info : PackageMeta) :
    (ofInfo catalog directory name info).patches =
      catalog.patchesFor? name (ofInfo catalog directory name info).version :=
  rfl

/-- Every file that the patch set patches is listed. -/
theorem mem_files_of_transforms {steps : List Transform}
    (hset : (ofInfo catalog directory name info).patches = some set)
    (hmem : (file, .transforms steps) ∈ set.entries) :
    file ∈ (ofInfo catalog directory name info).files := by
  simp only [ofInfo] at hset ⊢
  rw [hset, Option.map_some, Option.getD_some]
  exact mem_mergePatches.mpr (.inr (.inr ⟨steps, hmem⟩))

theorem mem_patchedFiles {record : PackageRecord} {steps : List Transform} :
    (file, steps) ∈ record.patchedFiles ↔
      file ∈ record.files ∧ record.transformsFor? file = some steps := by
  simp only [patchedFiles, List.mem_filterMap, Option.map_eq_some_iff, Prod.mk.injEq]
  constructor
  · rintro ⟨listed, hlisted, found, hfound, rfl, rfl⟩
    exact ⟨hlisted, hfound⟩
  · rintro ⟨hlisted, hfound⟩
    exact ⟨file, hlisted, steps, hfound, rfl, rfl⟩

/-- The patched files of a record are those of the patch set that the catalog selects. -/
structure PatchedAsSelected (catalog : Catalog) (name : String) (record : PackageRecord) :
    Prop where
  /-- The patched files are the keys other than `_add`. -/
  file_iff : ∀ file, file ∈ record.patchedFiles.map Prod.fst ↔
    catalog.patchesFile name record.version file = true
  /-- Each goes through the transforms under its key. -/
  steps : ∀ file steps, (file, steps) ∈ record.patchedFiles →
    ∀ set, catalog.patchesFor? name record.version = some set →
      ∀ patch, (file, patch) ∈ set.entries ↔ patch = .transforms steps
  /-- They stand in the order of the file list. -/
  inOrder : record.patchedFiles.map Prod.fst =
    record.files.filter (catalog.patchesFile name record.version)
  /-- Without a patch set nothing is patched. -/
  none : catalog.patchesFor? name record.version = none → record.patchedFiles = []

theorem isPatched_ofInfo
    (hformed : ∀ version set, catalog.patchesFor? name version = some set → set.WellFormed)
    (directory : String) (info : PackageMeta) :
    (ofInfo catalog directory name info).isPatched =
      catalog.patchesFile name (ofInfo catalog directory name info).version := by
  funext file
  rw [Bool.eq_iff_iff, Catalog.patchesFile_eq_true_iff, isPatched, transformsFor?,
    patches_ofInfo, Option.isSome_iff_exists]
  constructor
  · rintro ⟨steps, hsteps⟩
    obtain ⟨set, hset, hfound⟩ := Option.bind_eq_some_iff.mp hsteps
    have hwell := hformed _ set hset
    exact ⟨set, hset, hwell.exists_transforms_iff.mp
      ⟨steps, hwell.transformsFor?_eq_some_iff.mp hfound⟩⟩
  · rintro ⟨set, hset, hkey⟩
    have hwell := hformed _ set hset
    obtain ⟨steps, hmem⟩ := hwell.exists_transforms_iff.mpr hkey
    exact ⟨steps, Option.bind_eq_some_iff.mpr
      ⟨set, hset, hwell.transformsFor?_eq_some_iff.mpr hmem⟩⟩

/-- A record that is made from metadata has the patched files of the selected patch set. -/
theorem patchedAsSelected_ofInfo
    (hformed : ∀ version set, catalog.patchesFor? name version = some set → set.WellFormed)
    (directory : String) (info : PackageMeta) :
    (ofInfo catalog directory name info).PatchedAsSelected catalog name := by
  have hpatches := patches_ofInfo catalog directory name info
  have horder : (ofInfo catalog directory name info).patchedFiles.map Prod.fst =
      (ofInfo catalog directory name info).files.filter
        (catalog.patchesFile name (ofInfo catalog directory name info).version) := by
    rw [map_fst_patchedFiles, isPatched_ofInfo hformed]
  refine ⟨fun file => ?_, fun file steps hfile set hset patch => ?_, horder, fun hnone => ?_⟩
  · rw [horder, List.mem_filter, and_iff_right_iff_imp]
    intro hfile
    obtain ⟨set, hset, hkey⟩ := Catalog.patchesFile_eq_true_iff.mp hfile
    obtain ⟨steps, hmem⟩ := (hformed _ set hset).exists_transforms_iff.mpr hkey
    exact mem_files_of_transforms (hpatches.trans hset) hmem
  · have hwell := hformed _ set hset
    have hfound := (mem_patchedFiles.mp hfile).2
    rw [transformsFor?, hpatches, hset, Option.bind_some] at hfound
    have hmem := hwell.transformsFor?_eq_some_iff.mp hfound
    constructor
    · intro hpatch
      exact (Prod.mk.inj (List.inj_on_of_nodup_map hwell.nodup hpatch hmem rfl)).2
    · rintro rfl
      exact hmem
  · rw [← List.map_eq_nil_iff, horder, List.filter_eq_nil_iff]
    intro file _ hfile
    obtain ⟨set, hset, -⟩ := Catalog.patchesFile_eq_true_iff.mp hfile
    rw [hnone] at hset
    cases hset

end PackageRecord

namespace PackageMap

/-- **No patch is lost and none is invented.** The jobs of each package are those for its patched
files, and these are the ones that the catalog selects. -/
theorem jobs_selected {source : String} (h : Catalog.ofText source = .ok catalog)
    (tree : Dependencies) (root directory marker : String) :
    (empty.flatten catalog directory tree).jobs root directory marker =
      (empty.flatten catalog directory tree).entries.flatMap (fun entry =>
        entry.2.patchedFiles.map (PatchJob.ofFile root directory marker entry.1)) ∧
    ∀ entry ∈ (empty.flatten catalog directory tree).entries,
      entry.2.PatchedAsSelected catalog entry.1 := by
  refine ⟨rfl, fun entry hentry => ?_⟩
  obtain ⟨info, hinfo⟩ := exists_ofInfo_of_mem_flatten hentry
  rw [hinfo]
  refine PackageRecord.patchedAsSelected_ofInfo (fun version set hset => ?_) directory info
  exact Catalog.wellFormed_of_ofText h hset

/-- A catalog with two patched files, one of which the package declares, and an added one. -/
def selectingText : String :=
  "\x7b\"p\": \x7b\"1\": \x7b\"b.js\": [], \"_add\": [\"c.css\"], "
    ++ "\"a.js\": [[\"plugin-wrap\"]]\x7d\x7d\x7d"

/-- The patch set of the package in it. -/
def selectedSet : PatchSet :=
  ⟨[("b.js", .transforms []), (PatchSet.addKey, .add ["c.css"]),
    ("a.js", .transforms [.pluginWrap])]⟩

/-- A version of the package that the patch set serves. -/
def selectedTree : Dependencies :=
  [("p", .installed { version := some "1.2.0", main := some (.many ["./a.js", "d.js"]) } [])]

theorem ofText_selectingText :
    Catalog.ofText selectingText = .ok [("p", [("1", selectedSet)])] := by
  decide +kernel

/-- The declared file comes first, and the other one stands behind the added file. -/
theorem jobs_selected_pair :
    Catalog.ofText selectingText = .ok [("p", [("1", selectedSet)])] ∧
    ("p", ⟨"1.2.0", ["a.js", "d.js", "b.js", "c.css"], some selectedSet⟩) ∈
      (empty.flatten [("p", [("1", selectedSet)])] "lib" selectedTree).entries ∧
    PackageRecord.PatchedAsSelected [("p", [("1", selectedSet)])] "p"
      ⟨"1.2.0", ["a.js", "d.js", "b.js", "c.css"], some selectedSet⟩ := by
  have hmem : ("p", ⟨"1.2.0", ["a.js", "d.js", "b.js", "c.css"], some selectedSet⟩) ∈
      (empty.flatten [("p", [("1", selectedSet)])] "lib" selectedTree).entries := by
    decide +kernel
  exact ⟨ofText_selectingText, hmem,
    (jobs_selected ofText_selectingText selectedTree "/r" "lib" "es6").2 _ hmem⟩

end PackageMap

end Retrofit

import Retrofit.Proofs.Package.Selected

/-!
# The directory of a package among its files

A package that is built whole names its own directory as its main file, and such an entry says
nothing about what to build. So the declared files leave the directory out
(`join_notMem_declaredFiles`). What a patch set adds or patches is taken as it stands.

**Theorem (`directory_mem_files_iff`).** In a map that was flattened from nothing, the files of a
package contain its own directory if and only if the patch set that is selected for it brings the
directory. Catalogs that do so can be read (`not_all_leave_out_directory`).
-/

namespace Retrofit

variable {catalog : Catalog} {directory name file : String} {tree : Dependencies}
  {record : PackageRecord}

/-- The patch set makes the file one of its package, since it adds or patches it. -/
def PatchSet.Brings (set : PatchSet) (file : String) : Prop :=
  set.Adds file ∨ ∃ steps, (file, FilePatch.transforms steps) ∈ set.entries

namespace PackageRecord

theorem join_notMem_declaredFiles (directory name : String) (declared : List String) :
    Path.join directory name ∉ declaredFiles directory name declared := by
  unfold declaredFiles
  suffices ∀ files : List String, Path.join directory name ∉ files →
      Path.join directory name ∉ declared.foldl (fun files file =>
        let file := listedName file
        if file = Path.join directory name ∨ file ∈ files then files else files ++ [file]) files
    from this [] List.not_mem_nil
  induction declared with
  | nil => exact fun files h => h
  | cons first rest ih =>
    intro files h
    refine ih _ ?_
    dsimp only
    split
    · exact h
    · rename_i hnew
      rw [not_or] at hnew
      rw [List.mem_append, List.mem_singleton, not_or]
      exact ⟨h, Ne.symm hnew.1⟩

/-- The files of a package are those that it declares, and those that its patch set brings. -/
theorem mem_files_ofInfo {info : PackageMeta} :
    file ∈ (ofInfo catalog directory name info).files ↔
      file ∈ declaredFiles directory name ((info.main.map MainFiles.toList).getD []) ∨
        ∃ set, (ofInfo catalog directory name info).patches = some set ∧ set.Brings file := by
  unfold ofInfo
  cases hset : catalog.patchesFor? name (info.version.getD Tag.none) with
  | none => simp [hset]
  | some set => simp [hset, mem_mergePatches, PatchSet.Brings]

end PackageRecord

namespace PackageMap

/-- **The directory of a package is one of its files only if the patch set brings it.** -/
theorem directory_mem_files_iff
    (h : (name, record) ∈ (empty.flatten catalog directory tree).entries) :
    Path.join directory name ∈ record.files ↔
      ∃ set, catalog.patchesFor? name record.version = some set ∧
        set.Brings (Path.join directory name) := by
  obtain ⟨info, rfl⟩ := exists_ofInfo_of_mem_flatten h
  rw [PackageRecord.mem_files_ofInfo, PackageRecord.patches_ofInfo,
    or_iff_right (PackageRecord.join_notMem_declaredFiles directory name _)]

/-- A package that declares its own directory, one whose patch set adds it, and one whose patch set
patches it. -/
def wholeTree : Dependencies :=
  [("a", .installed { version := some "1.0.0", main := some (.many ["./lib/a", "a.js"]) } []),
   ("b", .installed { version := some "1.0.0" } []),
   ("c", .installed { version := some "1.0.0" } [])]

/-- A catalog with these patch sets. -/
def wholeText : String :=
  "\x7b\"b\": \x7b\"1\": \x7b\"_add\": [\"lib/b\"]\x7d\x7d, "
    ++ "\"c\": \x7b\"1\": \x7b\"lib/c\": []\x7d\x7d\x7d"

/-- What the text says. -/
def wholeCatalog : Catalog :=
  [("b", [("1", ⟨[(PatchSet.addKey, .add ["lib/b"])]⟩)]),
    ("c", [("1", ⟨[("lib/c", .transforms [])]⟩)])]

theorem ofText_wholeText : Catalog.ofText wholeText = .ok wholeCatalog := by
  decide +kernel

/-- The map of the tree: the declared directory is left out, the added and the patched one are
not. -/
theorem entries_wholeTree : (empty.flatten wholeCatalog "lib" wholeTree).entries =
    [("a", ⟨"1.0.0", ["a.js"], none⟩),
     ("b", ⟨"1.0.0", ["lib/b"], some ⟨[(PatchSet.addKey, .add ["lib/b"])]⟩⟩),
     ("c", ⟨"1.0.0", ["lib/c"], some ⟨[("lib/c", .transforms [])]⟩⟩)] := by
  decide +kernel

/-- The package that declares its directory has no patch set, and the one with the patched file has
it among its files. -/
theorem directory_mem_files_iff_whole :
    (("a", ⟨"1.0.0", ["a.js"], none⟩) ∈ (empty.flatten wholeCatalog "lib" wholeTree).entries ∧
      (Path.join "lib" "a" ∈ ["a.js"] ↔ ∃ set, wholeCatalog.patchesFor? "a" "1.0.0" = some set ∧
        set.Brings (Path.join "lib" "a"))) ∧
    (("c", ⟨"1.0.0", ["lib/c"], some ⟨[("lib/c", .transforms [])]⟩⟩) ∈
        (empty.flatten wholeCatalog "lib" wholeTree).entries ∧
      (Path.join "lib" "c" ∈ ["lib/c"] ↔ ∃ set, wholeCatalog.patchesFor? "c" "1.0.0" = some set ∧
        set.Brings (Path.join "lib" "c"))) := by
  have hdeclared : ("a", ⟨"1.0.0", ["a.js"], none⟩) ∈
      (empty.flatten wholeCatalog "lib" wholeTree).entries := by
    simp [entries_wholeTree]
  have hpatched : ("c", ⟨"1.0.0", ["lib/c"], some ⟨[("lib/c", .transforms [])]⟩⟩) ∈
      (empty.flatten wholeCatalog "lib" wholeTree).entries := by
    simp [entries_wholeTree]
  exact ⟨⟨hdeclared, directory_mem_files_iff hdeclared⟩, hpatched, directory_mem_files_iff hpatched⟩

/-- The files of a package can contain its own directory: a catalog can add it. -/
theorem not_all_leave_out_directory :
    ¬ ∀ (text : String) (catalog : Catalog), Catalog.ofText text = .ok catalog →
      ∀ (tree : Dependencies) (directory : String),
        ∀ entry ∈ (empty.flatten catalog directory tree).entries,
          Path.join directory entry.1 ∉ entry.2.files := by
  intro h
  have hadded : ("b", ⟨"1.0.0", ["lib/b"], some ⟨[(PatchSet.addKey, .add ["lib/b"])]⟩⟩) ∈
      (empty.flatten wholeCatalog "lib" wholeTree).entries := by
    simp [entries_wholeTree]
  exact absurd (by decide +kernel)
    (h wholeText wholeCatalog ofText_wholeText wholeTree "lib" _ hadded)

end PackageMap

end Retrofit

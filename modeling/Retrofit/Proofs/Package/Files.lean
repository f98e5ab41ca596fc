import Mathlib.Data.List.Nodup
import Retrofit.Proofs.Package.Map

/-!
# The files of a package

The declared files of a package are listed once each (`nodup_declaredFiles`), and what a patch set
says about files keeps it that way (`count_mergeEntry_le`). Only files that are to be added are
added whether they are listed or not. So a file that is listed twice is one that the patch set adds
(`adds_of_one_lt_count`).
-/

namespace Retrofit

/-- The patch set adds the file to its package. -/
def PatchSet.Adds (set : PatchSet) (file : String) : Prop :=
  ∃ key added, (key, FilePatch.add added) ∈ set.entries ∧ file ∈ added

namespace PackageRecord

variable {set : PatchSet} {files : List String} {file : String} {entry : String × FilePatch}

theorem nodup_declaredFiles (directory name : String) (declared : List String) :
    (declaredFiles directory name declared).Nodup := by
  unfold declaredFiles
  suffices ∀ files : List String, files.Nodup → (declared.foldl (fun files file =>
      let file := listedName file
      if file = Path.join directory name ∨ file ∈ files then files
      else files ++ [file]) files).Nodup
    from this [] List.nodup_nil
  induction declared with
  | nil => exact fun files h => h
  | cons first rest ih =>
    intro files h
    refine ih _ ?_
    dsimp only
    split
    · exact h
    · rename_i hnew
      rw [not_or] at hnew
      exact h.append (List.nodup_singleton _) (List.disjoint_singleton.mpr hnew.2)

/-- An entry that does not add the file lists it once at most, if it was not listed. -/
theorem count_mergeEntry_le (files : List String)
    (h : ∀ added, entry.2 = .add added → file ∉ added) :
    (mergeEntry files entry).count file ≤ max 1 (files.count file) := by
  obtain ⟨key, patch⟩ := entry
  cases patch with
  | add added =>
    have hnot : file ∉ added := h added rfl
    rw [mergeEntry, List.count_append, List.count_eq_zero.mpr hnot]
    exact Nat.le_max_right _ _
  | transforms steps =>
    rw [mergeEntry]
    split
    · exact Nat.le_max_right _ _
    · rename_i hnew
      rw [List.count_append]
      by_cases heq : key = file
      · subst heq
        rw [List.count_eq_zero.mpr hnew, List.count_singleton_self]
        exact Nat.le_max_left _ _
      · rw [List.count_singleton, if_neg (by simpa using heq)]
        exact Nat.le_max_right _ _

theorem count_mergePatches_le (files : List String) (h : ¬ set.Adds file) :
    (mergePatches files set).count file ≤ max 1 (files.count file) := by
  obtain ⟨entries⟩ := set
  unfold mergePatches
  induction entries generalizing files with
  | nil => exact Nat.le_max_right _ _
  | cons first rest ih =>
    have hrest : ¬ PatchSet.Adds ⟨rest⟩ file := by
      rintro ⟨key, added, hmem, hfile⟩
      exact h ⟨key, added, List.mem_cons_of_mem _ hmem, hfile⟩
    have hfirst : (mergeEntry files first).count file ≤ max 1 (files.count file) := by
      refine count_mergeEntry_le files fun added hadd hfile => h ⟨first.1, added, ?_, hfile⟩
      rw [← hadd]
      exact List.mem_cons_self ..
    have hlast : (rest.foldl mergeEntry (mergeEntry files first)).count file ≤
        max 1 ((mergeEntry files first).count file) := ih _ hrest
    rw [List.foldl_cons]
    omega

/-- Only added files are listed more than once. -/
theorem adds_of_one_lt_count {catalog : Catalog} {directory name : String} {info : PackageMeta}
    (h : 1 < (ofInfo catalog directory name info).files.count file) :
    ∃ set, (ofInfo catalog directory name info).patches = some set ∧ set.Adds file := by
  unfold ofInfo at h ⊢
  generalize (info.main.map MainFiles.toList).getD [] = declared at h ⊢
  have hdeclared :=
    List.nodup_iff_count_le_one.mp (nodup_declaredFiles directory name declared) file
  cases hset : catalog.patchesFor? name (info.version.getD Tag.none) with
  | none =>
    simp only [hset, Option.map_none, Option.getD_none] at h
    exact absurd h (Nat.not_lt_of_le hdeclared)
  | some set =>
    refine ⟨set, hset, ?_⟩
    by_contra hadds
    have hmerged := count_mergePatches_le (declaredFiles directory name declared) hadds
    simp only [hset, Option.map_some, Option.getD_some] at h
    omega

/-- The names of the patched files are the patched ones among the files. -/
theorem map_fst_patchedFiles (record : PackageRecord) :
    record.patchedFiles.map Prod.fst = record.files.filter record.isPatched := by
  unfold patchedFiles
  induction record.files with
  | nil => rfl
  | cons first rest ih =>
    rw [List.filterMap_cons, List.filter_cons, isPatched]
    cases record.transformsFor? first with
    | none => simpa using ih
    | some steps => simpa using ih

end PackageRecord

end Retrofit

import Mathlib.Control.Monad.Basic
import Mathlib.Data.List.ModifyLast
import Mathlib.Data.List.Nodup
import Retrofit.Catalog.Shape
import Retrofit.Proofs.Package.Files
import Retrofit.Proofs.Patch.Containment

/-!
# Jobs that meet

The jobs of a pass are carried out next to each other, so it matters which of them write one file,
and which of them write a file that another one reads.

**Artifacts.** The artifact of a job tells its source, so two jobs share an artifact if and only if
they share a source, and no job writes its own source.

**Theorem (`PackageMap.separated`).** In packages with plain names, whose patched files lie below
them (`WellNamed`), a source tells the package and the way to the file in it. So all artifacts are
different if and only if no package has one patched file twice, and no artifact is a source if and
only if no package patches both a file and the file that has the name of its artifact. A patched
file is listed twice only if a patch set adds it.

Nothing keeps a catalog from adding a patched file, so there are jobs that meet
(`PackageMap.not_all_separated`).
-/

namespace Retrofit

variable {root directory marker : String} {packages : PackageMap} {job other : PatchJob}

namespace Path

variable {name file name' file' : String}

/-- The name of a package that is one directory in the install directory. -/
structure IsPlain (name : String) : Prop where
  notMem : '/' ∉ name.toList
  ordinary : IsOrdinary name.toList

theorem IsPlain.segments (h : IsPlain name) : segments name = [name.toList] :=
  Text.pieces_of_notMem h.notMem

theorem IsPlain.isAbsolute (h : IsPlain name) : isAbsolute name = false :=
  isAbsolute_of_segments (h.segments.trans (List.nil_append _).symm)

/-- A package stands directly in the install directory. -/
theorem IsPlain.join (h : IsPlain name) (directory : String) :
    Path.isAbsolute (join directory name) = Path.isAbsolute directory ∧
      resolved (Path.join directory name) = resolved directory ++ [name.toList] := by
  rw [join_eq_normalize, isAbsolute_normalize, resolved_normalize]
  have hname : ∀ segment ∈ [name.toList], IsOrdinary segment :=
    List.forall_mem_singleton.mpr h.ordinary
  by_cases hempty : directory.isEmpty = true
  · rw [beneath, if_pos hempty]
    rw [String.isEmpty_iff] at hempty
    subst hempty
    refine ⟨h.isAbsolute, ?_⟩
    rw [resolved, h.segments, h.isAbsolute]
    exact resolve_append_of_isOrdinary [] hname
  · rw [Bool.not_eq_true] at hempty
    refine ⟨isAbsolute_beneath hempty name, ?_⟩
    rw [resolved_beneath hempty, h.segments, resolve_append_of_isOrdinary _ hname,
      resolve_of_isNormal (isNormal_resolved directory)]

/-- The path of a file that lies below a package ends in the name of the package and the way to the
file. -/
theorem exists_segments_file (root directory : String) :
    ∃ front, ∀ name file, IsPlain name → LeadsDown file →
      segments (under root (join (join directory name) file)) =
        front ++ name.toList :: trail file := by
  have hjoin : ∀ name file, IsPlain name → LeadsDown file →
      isAbsolute (join (join directory name) file) = isAbsolute directory ∧
        segments (join (join directory name) file) =
          (if isAbsolute directory then [[]] else []) ++ resolved directory ++
            name.toList :: trail file := by
    intro name file hname hfile
    obtain ⟨habs, hresolved⟩ := hname.join directory
    have hne : (join directory name).isEmpty = false := by
      rw [join_eq_normalize, isEmpty_normalize]
    have hpath : isAbsolute (join (join directory name) file) = isAbsolute directory := by
      rw [join_eq_normalize, isAbsolute_normalize, isAbsolute_beneath hne, habs]
    have htrail : resolved (beneath (join directory name) file) =
        resolved directory ++ name.toList :: trail file := by
      rw [resolved_beneath hne, ← resolve_append_trail,
        resolve_append_of_isOrdinary _ hfile.ordinary, resolve_of_isNormal (isNormal_resolved _),
        hresolved, List.append_assoc,
        List.singleton_append]
    refine ⟨hpath, ?_⟩
    rw [join_eq_normalize, segments_normalize (by simp [htrail]), htrail,
      isAbsolute_beneath hne, habs, List.append_assoc]
  cases habs : isAbsolute directory with
  | true =>
    refine ⟨[[]] ++ resolved directory, fun name file hname hfile => ?_⟩
    obtain ⟨hpath, hsegments⟩ := hjoin name file hname hfile
    rw [under_of_isAbsolute (hpath.trans habs), hsegments, habs, if_pos rfl]
  | false =>
    obtain ⟨front, hfront⟩ := segments_under root
    refine ⟨front ++ resolved directory, fun name file hname hfile => ?_⟩
    obtain ⟨hpath, hsegments⟩ := hjoin name file hname hfile
    rw [hfront _ (hpath.trans habs), hsegments, habs, if_neg Bool.false_ne_true, List.nil_append,
      List.append_assoc]

end Path

namespace PatchJob

open Retrofit.Path

theorem artifact_ofFile (hmarker : '/' ∉ marker.toList) (root directory name : String)
    (file : String × List Transform) :
    (ofFile root directory marker name file).artifact =
      patchedName (ofFile root directory marker name file).source marker := by
  simp only [ofFile]
  exact under_patchedName hmarker root _

variable {name name' : String} {file file' : String × List Transform}

/-- The source of a job tells its package and the way to the file. -/
theorem source_eq_source_iff (hname : IsPlain name) (hfile : LeadsDown file.1)
    (hname' : IsPlain name') (hfile' : LeadsDown file'.1) :
    (ofFile root directory marker name file).source =
      (ofFile root directory marker name' file').source ↔
      name = name' ∧ trail file.1 = trail file'.1 := by
  obtain ⟨front, hfront⟩ := exists_segments_file root directory
  simp only [ofFile]
  rw [← segments_injective.eq_iff, hfront name file.1 hname hfile,
    hfront name' file'.1 hname' hfile', List.append_cancel_left_eq, List.cons.injEq,
    String.toList_inj]

/-- The artifact of a job is the source of another one if that has the marked name in the same
package. -/
theorem artifact_eq_source_iff (hmarker : '/' ∉ marker.toList) (hname : IsPlain name)
    (hfile : LeadsDown file.1) (hname' : IsPlain name') (hfile' : LeadsDown file'.1) :
    (ofFile root directory marker name file).artifact =
        (ofFile root directory marker name' file').source ↔
      name = name' ∧ (trail file.1).modifyLast (marked marker) = trail file'.1 := by
  obtain ⟨front, hfront⟩ := exists_segments_file root directory
  obtain ⟨down, last, htrail⟩ := (trail file.1).eq_nil_or_concat'.resolve_left hfile.ne_nil
  have hsource := hfront name file.1 hname hfile
  rw [htrail, ← List.cons_append, ← List.append_assoc] at hsource
  have hartifact := segments_patchedName_of hmarker hsource
  rw [artifact_ofFile hmarker]
  simp only [ofFile]
  rw [← segments_injective.eq_iff, hartifact, hfront name' file'.1 hname' hfile', List.append_assoc,
    List.append_cancel_left_eq, List.cons_append, List.cons.injEq, String.toList_inj, htrail,
    List.modifyLast_concat]

end PatchJob

namespace PackageMap

open Retrofit.Path

theorem artifact_of_mem_jobs (hmarker : '/' ∉ marker.toList)
    (h : job ∈ packages.jobs root directory marker) :
    job.artifact = patchedName job.source marker := by
  obtain ⟨entry, -, file, -, rfl⟩ := mem_jobs.mp h
  exact PatchJob.artifact_ofFile hmarker root directory entry.1 file

/-- The packages have plain names, and their patched files lie below them. -/
structure WellNamed (packages : PackageMap) : Prop where
  name : ∀ entry ∈ packages.entries, IsPlain entry.1
  file : ∀ entry ∈ packages.entries, ∀ file ∈ entry.2.patchedFiles, LeadsDown file.1

/-- No package has a patched file twice. -/
def ListsOnce (packages : PackageMap) : Prop :=
  ∀ entry ∈ packages.entries, (entry.2.patchedFiles.map fun file => trail file.1).Nodup

/-- No package patches both a file and the file that has the name of its artifact. -/
def ListsNoArtifact (packages : PackageMap) (marker : String) : Prop :=
  ∀ entry ∈ packages.entries, ∀ file ∈ entry.2.patchedFiles, ∀ other ∈ entry.2.patchedFiles,
    (trail file.1).modifyLast (marked marker) ≠ trail other.1

/-- All sources are different if and only if no package has a patched file twice. -/
theorem WellNamed.nodup_sources_iff (h : packages.WellNamed) (root directory marker : String) :
    ((packages.jobs root directory marker).map (·.source)).Nodup ↔ packages.ListsOnce := by
  have hsource : ∀ entry ∈ packages.entries, ∀ file ∈ entry.2.patchedFiles,
      ∀ entry' ∈ packages.entries, ∀ file' ∈ entry'.2.patchedFiles,
      ((PatchJob.ofFile root directory marker entry.1 file).source =
        (PatchJob.ofFile root directory marker entry'.1 file').source ↔
        entry.1 = entry'.1 ∧ trail file.1 = trail file'.1) :=
    fun entry hentry file hfile entry' hentry' file' hfile' =>
      PatchJob.source_eq_source_iff (h.name entry hentry) (h.file entry hentry file hfile)
        (h.name entry' hentry') (h.file entry' hentry' file' hfile')
  simp only [jobs, List.map_flatMap, List.map_map, List.nodup_flatMap, ListsOnce]
  -- Jobs of two packages do not have one source, since the names of the packages differ.
  have hdisjoint : packages.entries.Pairwise (Function.onFun List.Disjoint fun entry =>
      entry.2.patchedFiles.map ((·.source) ∘ PatchJob.ofFile root directory marker entry.1)) := by
    refine (List.pairwise_map.mp packages.nodup_names).imp_of_mem
      fun {entry entry'} hentry hentry' hne => ?_
    intro source hmem hmem'
    obtain ⟨file, hfile, rfl⟩ := List.mem_map.mp hmem
    obtain ⟨file', hfile', heq⟩ := List.mem_map.mp hmem'
    exact hne ((hsource entry' hentry' file' hfile' entry hentry file hfile).mp heq).1.symm
  have hinside : ∀ entry ∈ packages.entries,
      ((entry.2.patchedFiles.map
          ((·.source) ∘ PatchJob.ofFile root directory marker entry.1)).Nodup ↔
        (entry.2.patchedFiles.map fun file => trail file.1).Nodup) := by
    intro entry hentry
    rw [List.Nodup, List.Nodup, List.pairwise_map, List.pairwise_map]
    refine List.Pairwise.iff_of_mem fun {file file'} hfile hfile' => not_congr ?_
    rw [Function.comp_apply, Function.comp_apply,
      hsource entry hentry file hfile entry hentry file' hfile']
    exact and_iff_right rfl
  constructor
  · rintro ⟨hall, -⟩ entry hentry
    exact (hinside entry hentry).mp (hall entry hentry)
  · intro hall
    exact ⟨fun entry hentry => (hinside entry hentry).mpr (hall entry hentry), hdisjoint⟩

/-- No artifact is a source if and only if no package patches both a file and the file that has the
name of its artifact. -/
theorem WellNamed.apart_iff (h : packages.WellNamed) (hmarker : '/' ∉ marker.toList)
    (root directory : String) :
    (∀ job ∈ packages.jobs root directory marker, ∀ other ∈ packages.jobs root directory marker,
      job.artifact ≠ other.source) ↔ packages.ListsNoArtifact marker := by
  constructor
  · intro hall entry hentry file hfile file' hfile' htrail
    refine hall _ (mem_jobs.mpr ⟨entry, hentry, file, hfile, rfl⟩) _
      (mem_jobs.mpr ⟨entry, hentry, file', hfile', rfl⟩) ?_
    exact (PatchJob.artifact_eq_source_iff hmarker (h.name entry hentry)
      (h.file entry hentry file hfile)
      (h.name entry hentry) (h.file entry hentry file' hfile')).mpr ⟨rfl, htrail⟩
  · intro hlists job hjob other hother heq
    obtain ⟨⟨name, record⟩, hentry, file, hfile, rfl⟩ := mem_jobs.mp hjob
    obtain ⟨⟨name', record'⟩, hentry', file', hfile', rfl⟩ := mem_jobs.mp hother
    obtain ⟨rfl, htrail⟩ := (PatchJob.artifact_eq_source_iff hmarker (h.name _ hentry)
      (h.file _ hentry file hfile) (h.name _ hentry') (h.file _ hentry' file' hfile')).mp heq
    -- Of one name there is one record only.
    have hrecord := mem_entries_iff.mp hentry
    rw [mem_entries_iff.mp hentry', Option.some.injEq] at hrecord
    subst hrecord
    exact hlists _ hentry file hfile file' hfile' htrail

/-- Which jobs meet. -/
structure Separated (packages : PackageMap) (root directory marker : String) : Prop where
  /-- Two jobs share an artifact if and only if they share a source. -/
  artifact_iff : ∀ job ∈ packages.jobs root directory marker,
    ∀ other ∈ packages.jobs root directory marker,
      job.artifact = other.artifact ↔ job.source = other.source
  own : ∀ job ∈ packages.jobs root directory marker, job.artifact ≠ job.source
  nodup_artifacts_iff : ((packages.jobs root directory marker).map (·.artifact)).Nodup ↔
    ((packages.jobs root directory marker).map (·.source)).Nodup
  /-- Among well-named files, artifacts are shared where a package has a patched file twice. -/
  listsOnce_iff : packages.WellNamed →
    (((packages.jobs root directory marker).map (·.artifact)).Nodup ↔ packages.ListsOnce)
  /-- Among well-named files, an artifact is a source where a package patches it as well. -/
  listsNoArtifact_iff : packages.WellNamed →
    ((∀ job ∈ packages.jobs root directory marker, ∀ other ∈ packages.jobs root directory marker,
      job.artifact ≠ other.source) ↔ packages.ListsNoArtifact marker)
  /-- A patched file is listed twice only if it is added. -/
  added : ∀ entry ∈ packages.entries, ∀ file,
    1 < (entry.2.patchedFiles.map Prod.fst).count file →
      ∃ set, entry.2.patches = some set ∧ set.Adds file

theorem nodup_artifacts_iff (hmarker : '/' ∉ marker.toList) (packages : PackageMap)
    (root directory : String) :
    ((packages.jobs root directory marker).map (·.artifact)).Nodup ↔
      ((packages.jobs root directory marker).map (·.source)).Nodup := by
  have hmap : (packages.jobs root directory marker).map (·.artifact) =
      ((packages.jobs root directory marker).map (·.source)).map (patchedName · marker) := by
    rw [List.map_map]
    exact List.map_congr_left fun job hjob => artifact_of_mem_jobs hmarker hjob
  rw [hmap, List.nodup_map_iff (patchedName_injective hmarker)]

/-- **Which jobs of a pass meet.** -/
theorem separated (hmarker : '/' ∉ marker.toList) (catalog : Catalog) (tree : Dependencies)
    (root directory : String) :
    (empty.flatten catalog directory tree).Separated root directory marker := by
  have hnodup := nodup_artifacts_iff hmarker (empty.flatten catalog directory tree) root directory
  refine ⟨?_, ?_, hnodup, ?_, ?_, ?_⟩
  · intro job hjob other hother
    rw [artifact_of_mem_jobs hmarker hjob, artifact_of_mem_jobs hmarker hother]
    exact (patchedName_injective hmarker).eq_iff
  · intro job hjob
    rw [artifact_of_mem_jobs hmarker hjob]
    exact patchedName_ne_self hmarker job.source
  · intro hnamed
    exact hnodup.trans (hnamed.nodup_sources_iff root directory marker)
  · intro hnamed
    exact hnamed.apart_iff hmarker root directory
  · intro entry hentry file htwice
    obtain ⟨info, hinfo⟩ := exists_ofInfo_of_mem_flatten hentry
    rw [hinfo]
    refine PackageRecord.adds_of_one_lt_count (Nat.lt_of_lt_of_le htwice ?_)
    rw [PackageRecord.map_fst_patchedFiles, hinfo]
    exact List.filter_sublist.count_le file

/-- A package with two patched files. -/
def pairCatalog : Catalog :=
  [("a", [("1.0.0", ⟨[("a.js", .transforms []), ("b/c.js", .transforms [])]⟩)])]

/-- The package is installed. -/
def pairTree : Dependencies :=
  [("a", .installed { version := some "1.0.0", main := some (.one "./a.js") } [])]

theorem wellNamed_pair : (empty.flatten pairCatalog "lib" pairTree).WellNamed := by
  have hentries : (empty.flatten pairCatalog "lib" pairTree).entries =
      [("a", ⟨"1.0.0", ["a.js", "b/c.js"],
        some ⟨[("a.js", .transforms []), ("b/c.js", .transforms [])]⟩⟩)] := by
    decide +kernel
  constructor <;> rw [hentries] <;> intro entry hentry <;>
    obtain rfl := List.mem_singleton.mp hentry
  · exact ⟨by decide, by decide⟩
  · intro file hfile
    have htrail : trail file.1 = ["a.js".toList] ∨ trail file.1 = ["b".toList, "c.js".toList] := by
      revert file
      decide +kernel
    rcases htrail with htrail | htrail
    · exact ⟨by rw [htrail]; decide, by rw [htrail]; decide⟩
    · exact ⟨by rw [htrail]; decide, by rw [htrail]; decide⟩

/-- The jobs for the two files are apart. -/
theorem separated_pair :
    '/' ∉ "es6".toList ∧ (empty.flatten pairCatalog "lib" pairTree).WellNamed ∧
      (((empty.flatten pairCatalog "lib" pairTree).jobs "/r" "lib" "es6").map (·.artifact)).Nodup ∧
      ∀ job ∈ (empty.flatten pairCatalog "lib" pairTree).jobs "/r" "lib" "es6",
        ∀ other ∈ (empty.flatten pairCatalog "lib" pairTree).jobs "/r" "lib" "es6",
          job.artifact ≠ other.source := by
  have hmarker : '/' ∉ "es6".toList := by decide
  have h := separated hmarker pairCatalog pairTree "/r" "lib"
  have honce : (empty.flatten pairCatalog "lib" pairTree).ListsOnce := by
    unfold ListsOnce
    decide +kernel
  have hnone : (empty.flatten pairCatalog "lib" pairTree).ListsNoArtifact "es6" := by
    unfold ListsNoArtifact
    decide +kernel
  exact ⟨hmarker, wellNamed_pair, (h.listsOnce_iff wellNamed_pair).mpr honce,
    (h.listsNoArtifact_iff wellNamed_pair).mpr hnone⟩

/-- A catalog that adds a file and patches it. -/
def addingText : String :=
  "\x7b\"a\": \x7b\"1.0.0\": \x7b\"a.js\": [], \"_add\": [\"a.js\"]\x7d\x7d\x7d"

/-- The catalog that stands in the text. -/
def addingCatalog : Catalog :=
  [("a", [("1.0.0", ⟨[("a.js", .transforms []), (PatchSet.addKey, .add ["a.js"])]⟩)])]

theorem ofText_addingText : Catalog.ofText addingText = .ok addingCatalog := by
  decide +kernel

/-- **Jobs may meet.** The file that is patched and added has two jobs with one artifact. -/
theorem not_all_separated :
    ¬ ∀ (text : String) (catalog : Catalog), Catalog.ofText text = .ok catalog →
      ∀ (tree : Dependencies) (root directory marker : String), '/' ∉ marker.toList →
        (((empty.flatten catalog directory tree).jobs root directory marker).map
          (·.artifact)).Nodup ∧
        ∀ job ∈ (empty.flatten catalog directory tree).jobs root directory marker,
          ∀ other ∈ (empty.flatten catalog directory tree).jobs root directory marker,
            job.artifact ≠ other.source := by
  intro h
  have hnodup :=
    (h addingText addingCatalog ofText_addingText pairTree "/r" "lib" "es6" (by decide)).1
  exact absurd hnodup (by decide +kernel)

end PackageMap

end Retrofit

import Retrofit.Package.Projection
import Retrofit.Patch.Job
import Retrofit.Proofs.Path.Relative

/-!
# Views and jobs name the same artifacts

The view of all files and the jobs of a pass go through the same files (`PackageMap.listedFiles`):
the view has a path for each of them, and the pass a job for each that is patched. The view puts the
marker into the name of the file and joins the result with the directory of the package; the job
puts it into the joined path.

**Theorem (`Projection.names_artifacts`).** Both come to the same artifact, if the name of the file
ends in an ordinary segment: joining and taking out detours does not touch that segment
(`Path.exists_segments_join`), and the marker changes nothing else (`Path.join_patchedName`).
-/

namespace Retrofit

namespace Path

variable {base file marker : String}

/-- A joined path ends as its file does, if that is an ordinary name. What stands in front depends
on what stands in front in the file. -/
theorem exists_segments_join (h : base.isEmpty = false) (pre : List Segment) :
    ∃ front, ∀ file last, segments file = pre ++ [last] → IsOrdinary last →
      segments (join base file) = front ++ [last] := by
  refine ⟨(if isAbsolute base then [[]] else []) ++
    resolve (isAbsolute base) (resolved base ++ pre), fun file last hfile hlast => ?_⟩
  have hresolved : resolved (beneath base file) =
      resolve (isAbsolute base) (resolved base ++ pre) ++ [last] := by
    rw [resolved_beneath h, hfile, ← List.append_assoc,
      resolve_append_of_isOrdinary _ (List.forall_mem_singleton.mpr hlast)]
  rw [join_eq_normalize, segments_normalize (hresolved ▸ List.concat_ne_nil _ _), hresolved,
    isAbsolute_beneath h, List.append_assoc]

/-- It does not matter whether the marker is put in before a file is joined with a directory or
after. -/
theorem join_patchedName (hmarker : '/' ∉ marker.toList) (h : base.isEmpty = false)
    (hfile : IsOrdinary (basename file).toList) :
    join base (patchedName file marker) = patchedName (join base file) marker := by
  obtain ⟨pre, last, hsegments⟩ := segments_eq_concat file
  have hlast : IsOrdinary last := by simpa [basename, hsegments] using hfile
  obtain ⟨front, hfront⟩ := exists_segments_join h pre
  refine segments_injective ?_
  rw [hfront _ _ (segments_patchedName_of hmarker hsegments) (hlast.marked marker),
    segments_patchedName_of hmarker (hfront file last hsegments hlast)]

theorem isEmpty_join (base rest : String) : (join base rest).isEmpty = false := by
  rw [join_eq_normalize, isEmpty_normalize]

end Path

/-! ## The files of all packages -/

/-- A file in the list of its package. -/
structure ListedFile where
  package : String
  record : PackageRecord
  file : String

namespace ListedFile

/-- The path of the file in a view. -/
def path (p : Projection) (f : ListedFile) : String :=
  p.resolvedPath f.package f.record f.file

/-- The job for the file, if it is patched. -/
def job? (root directory marker : String) (f : ListedFile) : Option PatchJob :=
  (f.record.transformsFor? f.file).map fun steps =>
    PatchJob.ofFile root directory marker f.package (f.file, steps)

end ListedFile

/-- The files of all packages, in the order of the map and of the lists. -/
def PackageMap.listedFiles (packages : PackageMap) : List ListedFile :=
  packages.entries.flatMap fun (name, record) => record.files.map (ListedFile.mk name record)

theorem Projection.filenames_eq (p : Projection) :
    p.filenames = p.packages.listedFiles.map (ListedFile.path p) := by
  rw [filenames, PackageMap.listedFiles, List.map_flatMap]
  simp only [List.map_map]
  rfl

theorem PackageMap.jobs_eq (packages : PackageMap) (root directory marker : String) :
    packages.jobs root directory marker =
      packages.listedFiles.filterMap (ListedFile.job? root directory marker) := by
  rw [jobs, listedFiles, List.filterMap_flatMap]
  simp only [PackageRecord.patchedFiles, List.map_filterMap, List.filterMap_map]
  refine List.flatMap_congr fun entry _ => List.filterMap_congr fun file _ => ?_
  rw [Function.comp_apply, ListedFile.job?, Option.map_map]
  rfl

/-! ## The same artifact -/

/-- A view and the jobs of a pass go through the same files, and have one path for the artifact of
each file whose name ends in an ordinary segment. -/
structure Projection.NamesArtifacts (p : Projection) (root : String) : Prop where
  /-- The view has a path for each file. -/
  filenames : p.filenames = p.packages.listedFiles.map (ListedFile.path p)
  /-- The pass has a job for each patched file. -/
  jobs : p.packages.jobs root p.directory p.marker =
    p.packages.listedFiles.filterMap (ListedFile.job? root p.directory p.marker)
  /-- The path leads from the root to the artifact of the job. -/
  artifact : ∀ f ∈ p.packages.listedFiles, Path.IsOrdinary (Path.basename f.file).toList →
    ∀ job, f.job? root p.directory p.marker = some job → Path.under root (f.path p) = job.artifact

/-- **Views name the artifacts of the jobs.** -/
theorem Projection.names_artifacts (p : Projection) (hmarker : '/' ∉ p.marker.toList)
    (root : String) :
    p.NamesArtifacts root := by
  refine ⟨p.filenames_eq, p.packages.jobs_eq root p.directory p.marker,
    fun f _ hfile job hjob => ?_⟩
  obtain ⟨steps, hsteps, rfl⟩ := Option.map_eq_some_iff.mp hjob
  have hpatched : f.record.isPatched f.file = true := by rw [PackageRecord.isPatched, hsteps]; rfl
  simp only [ListedFile.path, resolvedPath, hpatched, if_true, PatchJob.ofFile]
  rw [Path.join_patchedName hmarker (Path.isEmpty_join p.directory f.package) hfile]

/-- The view of a package with a patched file in a directory with a detour. -/
theorem Projection.names_artifacts_detour :
    let p : Projection :=
      ⟨.ofList [("a", ⟨"1.0.0", ["x.y/..//.b", "c.js"], some ⟨[("x.y/..//.b", .transforms [])]⟩⟩)],
        "lib", "src", "", "es6"⟩
    '/' ∉ p.marker.toList ∧ p.filenames = ["lib/a/.b.es6", "lib/a/c.js"] ∧
      ∃ f ∈ p.packages.listedFiles, ∃ job, f.job? "/r" p.directory p.marker = some job ∧
        Path.IsOrdinary (Path.basename f.file).toList ∧ f.path p = "lib/a/.b.es6" ∧
        job.artifact = "/r/lib/a/.b.es6" := by
  intro p
  have hmarker : '/' ∉ p.marker.toList := by decide
  have h := names_artifacts p hmarker "/r"
  have hordinary : Path.IsOrdinary (Path.basename "x.y/..//.b").toList := by decide
  refine ⟨hmarker, by decide +kernel, _, List.mem_cons_self .., _, rfl, hordinary,
    by decide +kernel, ?_⟩
  rw [← h.artifact _ (List.mem_cons_self ..) hordinary _ rfl]
  decide +kernel

end Retrofit

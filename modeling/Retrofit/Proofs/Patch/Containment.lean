import Retrofit.Patch.Job
import Retrofit.Proofs.Patch.Job
import Retrofit.Proofs.Path.Containment

/-!
# Jobs in the directories of their packages

A job is meant to read and write below the directory of its package only. But a file name may hold
steps up, and neither the name nor the joined path is looked at before the job is made.

**Theorem (`PackageMap.inside_iff_staysBelow`).** A job stays in the directory of its package if and
only if the name of its file leads up no further than it comes back. The artifact stays there
whenever the source does, since it has an ordinary name in the same directory.

So a catalog can name files of other packages, and files outside the install directory
(`PackageMap.not_all_inside`).
-/

namespace Retrofit

variable {root directory marker name : String} {file : String × List Transform}
  {packages : PackageMap} {job : PatchJob}

namespace Path

/-- The directory of a package as it is written, in the install directory `directory` below
`root`. -/
def packageDirectory (root directory name : String) : String :=
  under root (beneath directory name)

/-- The path of a file of a package leads on from the directory of the package. -/
theorem resolved_file (root directory name file : String) :
    isAbsolute (under root (join (join directory name) file)) =
        isAbsolute (packageDirectory root directory name) ∧
      resolved (under root (join (join directory name) file)) =
        resolve (isAbsolute (packageDirectory root directory name))
          (resolved (packageDirectory root directory name) ++ segments file) := by
  have hjoin : isAbsolute (join directory name) = isAbsolute (beneath directory name) := by
    rw [join_eq_normalize, isAbsolute_normalize]
  have hresolved : resolved (join directory name) = resolved (beneath directory name) := by
    rw [join_eq_normalize, resolved_normalize]
  have hne : (join directory name).isEmpty = false := by
    rw [join_eq_normalize, isEmpty_normalize]
  have habs : isAbsolute (join (join directory name) file) = isAbsolute (join directory name) := by
    rw [join_eq_normalize, isAbsolute_normalize, isAbsolute_beneath hne]
  constructor
  · exact isAbsolute_under_congr (habs.trans hjoin) root
  · have hfile : resolved (under root (join (join directory name) file)) =
        resolved (under root (beneath (join directory name) file)) := by
      refine resolved_under_congr ?_ ?_ root
      · rw [join_eq_normalize, isAbsolute_normalize]
      · rw [join_eq_normalize, resolved_normalize]
    rw [hfile, resolved_under_beneath hne, isAbsolute_under_congr hjoin root,
      resolved_under_congr hjoin hresolved root]
    rfl

/-- Where a file name ends in an ordinary name, so does the path of the file. -/
theorem segments_join_concat {base file : String} {front : List Segment} {last : Segment}
    (hbase : base.isEmpty = false) (hfile : trail file = front ++ [last])
    (hlast : IsOrdinary last) : ∃ pre, segments (join base file) = pre ++ [last] := by
  have hresolved : resolved (beneath base file) =
      resolve (isAbsolute base) (resolved base ++ front) ++ [last] := by
    rw [resolved_beneath hbase, ← resolve_append_trail, hfile, ← List.append_assoc,
      resolve_append_of_isOrdinary _ (List.forall_mem_singleton.mpr hlast)]
  rw [join_eq_normalize, segments_normalize (hresolved ▸ List.concat_ne_nil _ _), hresolved,
    ← List.append_assoc]
  exact ⟨_, rfl⟩

end Path

namespace PatchJob

open Retrofit.Path

/-- The source and the artifact of a job are below a directory. -/
def Inside (job : PatchJob) (directory : String) : Prop :=
  Below directory job.source ∧ Below directory job.artifact

/-- The artifact of a file that stays in its package does so as well. -/
theorem below_artifact (hmarker : '/' ∉ marker.toList)
    (hfile : StaysBelow (packageDirectory root directory name) file.1)
    (hsource : Below (packageDirectory root directory name)
      (ofFile root directory marker name file).source) :
    Below (packageDirectory root directory name)
    (ofFile root directory marker name file).artifact := by
  obtain ⟨ups, back, names, hway, hne, hord, -, -⟩ := hfile
  obtain ⟨front, last, rfl⟩ := names.eq_nil_or_concat'.resolve_left hne
  have hlast : IsOrdinary last := hord last (by simp)
  rw [← List.append_assoc, ← List.append_assoc] at hway
  have hbase : (join directory name).isEmpty = false := by
    rw [join_eq_normalize, isEmpty_normalize]
  obtain ⟨pre, hpath⟩ := segments_join_concat hbase hway hlast
  obtain ⟨pre', a, b, hsegments, hab, hname, hartifact⟩ :=
    segments_under_patchedName hmarker root (join (join directory name) file.1)
  have hlasts : a ++ b = last := by
    rw [← hname, basename, hpath]
    simp
  rw [← hlasts] at hlast
  simp only [ofFile] at hsource ⊢
  exact hsource.of_segments hsegments hartifact hlast (hlast.mark hab marker)

theorem inside_ofFile_iff (hmarker : '/' ∉ marker.toList) (root directory name : String)
    (file : String × List Transform) :
    (ofFile root directory marker name file).Inside (packageDirectory root directory name) ↔
      StaysBelow (packageDirectory root directory name) file.1 := by
  obtain ⟨habs, hresolved⟩ := resolved_file root directory name file.1
  have hsource : Below (packageDirectory root directory name)
      (ofFile root directory marker name file).source ↔
        StaysBelow (packageDirectory root directory name) file.1 :=
    below_iff_staysBelow habs hresolved
  constructor
  · rintro ⟨hbelow, -⟩
    exact hsource.mp hbelow
  · intro hfile
    have hbelow := hsource.mpr hfile
    exact ⟨hbelow, below_artifact hmarker hfile hbelow⟩

end PatchJob

namespace PackageMap

open Retrofit.Path

theorem mem_jobs :
    job ∈ packages.jobs root directory marker ↔
      ∃ entry ∈ packages.entries, ∃ file ∈ entry.2.patchedFiles,
        job = .ofFile root directory marker entry.1 file := by
  simp [jobs, eq_comm]

/-- **Which jobs stay in their packages.** A job is inside the directory of its package if and only
if the name of its file leads up no further than it comes back. -/
theorem inside_iff_staysBelow (hmarker : '/' ∉ marker.toList) (packages : PackageMap)
    (root directory : String) :
    (∀ job, job ∈ packages.jobs root directory marker ↔
      ∃ entry ∈ packages.entries, ∃ file ∈ entry.2.patchedFiles,
        job = .ofFile root directory marker entry.1 file) ∧
    ∀ entry ∈ packages.entries, ∀ file ∈ entry.2.patchedFiles,
      ((PatchJob.ofFile root directory marker entry.1 file).Inside
          (packageDirectory root directory entry.1) ↔
        StaysBelow (packageDirectory root directory entry.1) file.1) :=
  ⟨fun _ => mem_jobs, fun entry _ file _ =>
    PatchJob.inside_ofFile_iff hmarker root directory entry.1 file⟩

/-- A package with a file that is named from the directory beside it, and one in another package. -/
def straying : PackageRecord where
  version := "1"
  files := ["../p/a.js", "../q/b.js"]
  patches := some ⟨[("../p/a.js", .transforms []), ("../q/b.js", .transforms [])]⟩

/-- The first of the two files stays in the package. -/
theorem inside_iff_staysBelow_detour :
    '/' ∉ "es6".toList ∧ ("../p/a.js", []) ∈ straying.patchedFiles ∧
      (PatchJob.ofFile "/r" "lib" "es6" "p" ("../p/a.js", [])).Inside
        (packageDirectory "/r" "lib" "p") := by
  have hmarker : '/' ∉ "es6".toList := by decide
  have hfile : ("../p/a.js", []) ∈ straying.patchedFiles := by decide
  have hstays : StaysBelow (packageDirectory "/r" "lib" "p") "../p/a.js" :=
    ⟨1, [['p']], ["a.js".toList], by decide, by decide, by decide,
      ⟨[['r'], "lib".toList], by decide⟩, .inl rfl⟩
  refine ⟨hmarker, hfile, ?_⟩
  exact ((inside_iff_staysBelow hmarker (.ofList [("p", straying)]) "/r" "lib").2 ("p", straying)
    (List.mem_singleton_self _) ("../p/a.js", []) hfile).mpr hstays

/-- **A job may leave its package.** The second of the two files is one of another package. -/
theorem not_all_inside :
    ¬ ∀ (packages : PackageMap) (root directory marker : String), '/' ∉ marker.toList →
      ∀ entry ∈ packages.entries, ∀ file ∈ entry.2.patchedFiles,
        (PatchJob.ofFile root directory marker entry.1 file).Inside
          (packageDirectory root directory entry.1) := by
  intro h
  obtain ⟨⟨-, names, -, -, hsource⟩, -⟩ :=
    h (.ofList [("p", straying)]) "/r" "lib" "es6" (by decide)
    ("p", straying) (List.mem_singleton_self _) ("../q/b.js", []) (by decide)
  have hresolved : resolved (PatchJob.ofFile "/r" "lib" "es6" "p" ("../q/b.js", [])).source =
      [['r'], "lib".toList, ['q'], "b.js".toList] := by
    decide
  have hdirectory : resolved (packageDirectory "/r" "lib" "p") = [['r'], "lib".toList, ['p']] := by
    decide
  rw [hresolved, hdirectory] at hsource
  simp at hsource

end PackageMap

end Retrofit

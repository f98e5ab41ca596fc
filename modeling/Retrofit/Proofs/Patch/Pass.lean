import Retrofit.Patch.Pass
import Retrofit.Proofs.Patch.History

/-!
# Plans, and what comes of them

A plan to write is one of a stale job, and its text is what the transforms make of the source
(`PatchJob.makes_of_plan_eq_write`). What a job makes depends on what stands at its source alone
(`PatchJob.Makes.congr`). Carrying it out writes the artifact, or fails and changes nothing
(`PatchJob.finish_write_cases`).
-/

namespace Retrofit

variable {files : Files} {vendor : String} {catalog : Option Nat} {now : Nat} {job : PatchJob}

/-! ## Plans -/

namespace PatchJob

/-- An artifact is up to date if it is newer than its source and the catalog. -/
theorem isStale_eq_false_iff :
    job.isStale files catalog = false ↔ ∃ built changed, files.modified job.artifact = .ok built ∧
      files.modified job.source = .ok changed ∧ changed < built ∧
        ∀ time ∈ catalog, time < built := by
  unfold isStale
  cases files.modified job.artifact with
  | error fault => simp
  | ok built =>
    cases files.modified job.source with
    | error fault => simp
    | ok changed => cases catalog <;> simp

/-- Whether an artifact is stale depends on the times that can be told. -/
theorem isStale_congr {new : Files} (hartifact : ∀ time, new.modified job.artifact = .ok time ↔
      files.modified job.artifact = .ok time)
    (hsource : ∀ time, new.modified job.source = .ok time ↔ files.modified job.source = .ok time) :
    job.isStale new catalog = job.isStale files catalog := by
  have h : job.isStale new catalog = false ↔ job.isStale files catalog = false := by
    simp only [isStale_eq_false_iff, hartifact, hsource]
  cases hnew : job.isStale new catalog <;> cases hold : job.isStale files catalog <;> simp_all

theorem isStale_of_plan_eq_write {text : String}
    (h : job.plan files vendor catalog = .write text) : job.isStale files catalog = true := by
  cases hstale : job.isStale files catalog with
  | true => rfl
  | false => simp [plan, hstale] at h

theorem makes_encode_iff {text : String} :
    job.Makes vendor files (Text.encode text) ↔ ∃ bytes, files.read job.source = .ok bytes ∧
      Transform.applyAll vendor job.transforms (Text.decode bytes) = .ok text := by
  constructor
  · rintro ⟨bytes, made, hread, happly, heq⟩
    rw [Text.encode_inj.mp heq]
    exact ⟨bytes, hread, happly⟩
  · rintro ⟨bytes, hread, happly⟩
    exact ⟨bytes, text, hread, happly, rfl⟩

theorem Makes.unique {text other : String} (h : job.Makes vendor files (Text.encode text))
    (h' : job.Makes vendor files (Text.encode other)) : text = other := by
  obtain ⟨bytes, hread, happly⟩ := makes_encode_iff.mp h
  obtain ⟨bytes', hread', happly'⟩ := makes_encode_iff.mp h'
  have hbytes : bytes = bytes' := Except.ok.inj (hread.symm.trans hread')
  subst hbytes
  exact Except.ok.inj (happly.symm.trans happly')

/-- What a job makes depends on the file that stands at its source. -/
theorem Makes.congr {other : Files} {text : String}
    (h : ∀ content time, files.get job.source = .ok (.file content time) →
      other.get job.source = .ok (.file content time))
    (hmakes : job.Makes vendor files (Text.encode text)) :
    job.Makes vendor other (Text.encode text) := by
  obtain ⟨bytes, hread, happly⟩ := makes_encode_iff.mp hmakes
  obtain ⟨time, hget⟩ := Files.read_eq_ok.mp hread
  exact makes_encode_iff.mpr ⟨bytes, Files.read_eq_ok.mpr ⟨time, h _ _ hget⟩, happly⟩

/-- What is to be written is what the transforms make of the source. -/
theorem makes_of_plan_eq_write {text : String} (h : job.plan files vendor catalog = .write text) :
    job.Makes vendor files (Text.encode text) := by
  have hstale := isStale_of_plan_eq_write h
  cases hread : files.read job.source with
  | error fault => simp [plan, hstale, hread] at h
  | ok bytes =>
    cases happly : Transform.applyAll vendor job.transforms (Text.decode bytes) with
    | error error => simp [plan, hstale, hread, happly] at h
    | ok made =>
      simp only [plan, hstale, hread, happly] at h
      exact makes_encode_iff.mpr ⟨bytes, hread, Plan.write.inj h ▸ happly⟩

/-- Without an artifact a job is stale. -/
theorem isStale_of_no_artifact (h : ∀ node, files.get job.artifact ≠ .ok node) :
    job.isStale files catalog = true := by
  unfold isStale
  cases hmodified : files.modified job.artifact with
  | error => rfl
  | ok time =>
    obtain ⟨node, hget, -⟩ := Files.modified_eq_ok.mp hmodified
    exact absurd hget (h node)

/-! ## Carrying out a plan -/

/-- Carrying out a plan to write leaves the files as they are and fails, or writes the artifact. -/
theorem finish_write_cases (files : Files) (now : Nat) (job : PatchJob) (text : String) :
    (∃ fault, job.finish files now (.write text) = (.error (.write fault), files)) ∨
      ∃ new, files.write job.artifact (Text.encode text) now = .ok new ∧
        job.finish files now (.write text) = (.ok .rebuilt, new) := by
  cases hwrite : files.write job.artifact (Text.encode text) now with
  | error fault => exact .inl ⟨fault, by rw [finish, hwrite]⟩
  | ok new => exact .inr ⟨new, rfl, by rw [finish, hwrite]⟩

end PatchJob

/-! ## How passes end -/

namespace Pass

/-- No job has failed. -/
def Succeeds (pass : Pass) : Prop :=
  pass.failures = []

/-- The job has not failed. -/
def Completes (pass : Pass) (job : PatchJob) : Prop :=
  ∀ result ∈ pass.results, result.job = job → ∃ outcome, result.result = .ok outcome

theorem Succeeds.completes {pass : Pass} (h : pass.Succeeds) (job : PatchJob) :
    pass.Completes job := by
  intro result hmem _
  cases hresult : result.result with
  | ok outcome => exact ⟨outcome, rfl⟩
  | error error =>
    have hfailed : (⟨result.job.source, error⟩ : PatchFailure) ∈ pass.failures :=
      List.mem_filterMap.mpr ⟨result, hmem, by simp [JobResult.failure?, hresult]⟩
    rw [h] at hfailed
    cases hfailed

end Pass

end Retrofit

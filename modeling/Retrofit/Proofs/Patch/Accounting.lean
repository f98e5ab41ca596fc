import Retrofit.Proofs.Patch.Course

/-!
# What a pass reports

**Theorem (`accounts_jobs`).** In whichever order the jobs of the packages go on, the pass comes to
an end. Every job has been attempted, ends in one way, and is reported with this end, whatever
happens to the others.

**Every end is reported.** `Accounted` sorts the ends of jobs into the rebuilt artifacts, the ones
that are up to date and the failures, each in the order of the jobs, with one event for each job.
What a pass reports is sorted this way (`accounted`), from which the numbers and the outcome follow.

**Nothing else changes.** Only a job that ends with a rebuilt artifact has changed a file, and only
that at the place of the artifact (`Course.Framed`).
-/

namespace Retrofit.Pass

open Course

variable {files : Files} {vendor : String} {catalog : Option Nat} {times : Nat → Prop}
  {jobs : List PatchJob} {results : List JobResult} {pass : Pass}

/-! ## Reports -/

/-- The ends of jobs are sorted into artifacts that are rebuilt and up to date and into failures,
and each is reported. -/
inductive Accounted : List JobResult → PatchReport → List PatchFailure → List Event → Prop
  | nil : Accounted [] {} [] []
  | rebuilt {results report failures events} (job : PatchJob)
      (rest : Accounted results report failures events) :
      Accounted (⟨job, .ok .rebuilt⟩ :: results)
        { report with rebuilt := job.artifact :: report.rebuilt } failures
        (.patched job.artifact :: events)
  | upToDate {results report failures events} (job : PatchJob)
      (rest : Accounted results report failures events) :
      Accounted (⟨job, .ok .upToDate⟩ :: results)
        { report with upToDate := job.artifact :: report.upToDate } failures
        (.upToDate job.artifact :: events)
  | failed {results report failures events} (job : PatchJob) (error : PatchError)
      (rest : Accounted results report failures events) :
      Accounted (⟨job, .error error⟩ :: results) report (⟨job.source, error⟩ :: failures)
        (.failed job.source error.message :: events)

namespace Accounted

variable {report : PatchReport} {failures : List PatchFailure} {events : List Event}

theorem total (h : Accounted results report failures events) :
    report.total + failures.length = results.length := by
  unfold PatchReport.total
  induction h with
  | nil => rfl
  | rebuilt job rest ih => simp only [List.length_cons]; omega
  | upToDate job rest ih => simp only [List.length_cons]; omega
  | failed job error rest ih => simp only [List.length_cons]; omega

theorem length_events (h : Accounted results report failures events) :
    events.length = results.length := by
  induction h with
  | nil => rfl
  | rebuilt job rest ih => simp [ih]
  | upToDate job rest ih => simp [ih]
  | failed job error rest ih => simp [ih]

theorem failures_eq_nil (h : Accounted results report failures events) :
    failures = [] ↔ ∀ r ∈ results, ∃ outcome, r.result = .ok outcome := by
  induction h with
  | nil => simp
  | rebuilt job rest ih => simp [ih]
  | upToDate job rest ih => simp [ih]
  | failed job error rest ih => simp

end Accounted

theorem accounted (pass : Pass) :
    Accounted pass.results pass.report pass.failures pass.events := by
  obtain ⟨results, files⟩ := pass
  induction results with
  | nil => exact .nil
  | cons r rest ih =>
    obtain ⟨job, result⟩ := r
    match result with
    | .ok .rebuilt => exact .rebuilt job ih
    | .ok .upToDate => exact .upToDate job ih
    | .error error => exact .failed job error ih

theorem outcome_eq_ok : pass.outcome = .ok pass.report ↔
    ∀ r ∈ pass.results, ∃ outcome, r.result = .ok outcome := by
  rw [← pass.accounted.failures_eq_nil, ← List.isEmpty_iff]
  cases hempty : pass.failures.isEmpty <;> simp [outcome, hempty]

theorem outcome_eq_error : pass.outcome = .error pass.failures ↔
    ∃ r ∈ pass.results, ∃ error, r.result = .error error := by
  have hfailures : pass.outcome = .error pass.failures ↔ pass.failures ≠ [] := by
    rw [ne_eq, ← List.isEmpty_iff]
    cases hempty : pass.failures.isEmpty <;> simp [outcome, hempty]
  rw [hfailures, ne_eq, pass.accounted.failures_eq_nil]
  simp only [Classical.not_forall, exists_prop]
  refine exists_congr fun r => and_congr_right fun _ => ?_
  cases r.result <;> simp

/-! ## The account -/

/-- What a pass over jobs has done to the files, and what it says of it. -/
structure Accounts (pass : Pass) (files : Files) (jobs : List PatchJob) : Prop where
  /-- Every job is attempted once, in order. -/
  attempted : pass.results.map JobResult.job = jobs
  /-- Every job is in one part of the report, in order, and has one event. -/
  reported : Accounted pass.results pass.report pass.failures pass.events
  /-- The parts of the report add up to the jobs. -/
  total : pass.report.rebuilt.length + pass.report.upToDate.length + pass.failures.length =
    jobs.length
  /-- There are as many events as jobs. -/
  events : pass.events.length = jobs.length
  /-- The pass fails, with all the failures, if some job has failed. -/
  fails : pass.outcome = .error pass.failures ↔ ∃ r ∈ pass.results, ∃ error, r.result = .error error
  /-- The pass succeeds, with the report, if no job has failed. -/
  succeeds : pass.outcome = .ok pass.report ↔ ∀ r ∈ pass.results, ∃ outcome, r.result = .ok outcome
  /-- A path finds the file that it did before, or none, unless a job has rebuilt its artifact
  there. -/
  unchanged : ∀ path, (∀ r ∈ pass.results, r.result = .ok .rebuilt →
    files.Apart path r.job.artifact) →
      ∀ content time, pass.files.get path = .ok (.file content time) ↔
        files.get path = .ok (.file content time)
  /-- A path leads to a directory if it did before. -/
  directories : ∀ path, (∃ time, pass.files.get path = .ok (.directory time)) ↔
    ∃ time, files.get path = .ok (.directory time)

/-- However the steps of the jobs follow one another, all is accounted for in the end. -/
structure Accountable (files : Files) (vendor : String) (catalog : Option Nat) (times : Nat → Prop)
    (jobs : List PatchJob) : Prop where
  /-- However far the jobs have come, they can all come to an end. -/
  ends : ∀ {now course}, times now → Reaches vendor catalog times (.start files jobs) course →
    ∃ pass : Pass, Reaches vendor catalog times course pass.course
  accounts : ∀ {pass : Pass}, pass.Interleaves files vendor catalog times jobs →
    pass.Accounts files jobs
  /-- This is so if all jobs look before the first one writes. -/
  run : ∀ {now}, times now → (run files vendor catalog now jobs).Accounts files jobs

theorem accounts_of_interleaves (h : pass.Interleaves files vendor catalog times jobs) :
    pass.Accounts files jobs := by
  have hjobs : pass.results.map JobResult.job = jobs := by
    rw [← map_fst_of_reaches h, course, List.map_map]
    rfl
  have hlength : pass.results.length = jobs.length := by rw [← hjobs, List.length_map]
  exact {
    attempted := hjobs
    reported := accounted pass
    total := (accounted pass).total.trans hlength
    events := (accounted pass).length_events.trans hlength
    fails := outcome_eq_error
    succeeds := outcome_eq_ok
    unchanged := fun path hpath => (framed_of_reaches h).kept path fun job hjob => by
      obtain ⟨r, hr, heq⟩ := List.mem_map.mp hjob
      obtain ⟨rfl, hended⟩ := Prod.mk.inj heq
      exact hpath r hr (Phase.ended.inj hended)
    directories := fun path => by
      constructor
      · rintro ⟨_, hdir⟩
        exact Files.exists_directory_within (framed_of_reaches h).within hdir
      · rintro ⟨_, hdir⟩
        exact Files.exists_directory_within (framed_of_reaches h).directories hdir }

/-- **Every job is accounted for.** -/
theorem accounts_jobs (packages : PackageMap) (root directory marker : String) (files : Files)
    (vendor : String) (catalog : Option Nat) (times : Nat → Prop) :
    Accountable files vendor catalog times (packages.jobs root directory marker) where
  ends hnow _ := exists_pass hnow _
  accounts := accounts_of_interleaves
  run hnow := accounts_of_interleaves (interleaves_run files vendor catalog _ hnow)

end Retrofit.Pass

import Mathlib.Algebra.Ring.Nat
import Mathlib.Logic.Relation
import Retrofit.Proofs.Patch.Pass

/-!
# Jobs that run at the same time

All jobs of a pass are under way at once, on one store of files. A job asks for the time of its
artifact, then for that of its source, reads the source, and writes the artifact (`Phase`). Between
two of these steps any other job may take one of its own.

**Steps.** A `Course` holds the files and says how far each job has come. A `Step` lets one job go
on. What is written gets some time of the clock, of which `times` says what is known.

**Interleavings.** A pass is an interleaving of its jobs (`Pass.Interleaves`) if steps lead from the
course in which no job has begun to the one in which every job has ended as the pass says. The pass
in which all jobs look before the first one writes is one (`Pass.interleaves_run`), and so is the
one in which each job begins when the job in front of it has ended (`Pass.interleaves_inTurn`). A
course never gets stuck, and never goes on for ever (`Course.exists_pass`).

**One job.** As long as a job sees the files as they were at the beginning, it does what it would do
alone (`PatchJob.onTrack_look`).
-/

namespace Retrofit

open Relation

variable {files : Files} {vendor : String} {catalog : Option Nat} {now : Nat} {times : Nat → Prop}
  {job : PatchJob} {jobs : List PatchJob}

/-- How far a job has come. -/
inductive Phase where
  | begun
  /-- The artifact has this time. -/
  | probed (built : Nat)
  /-- The artifact has to be rebuilt. -/
  | stale
  /-- This is what the transforms make of the source. -/
  | made (text : String)
  | ended (result : Except PatchError Outcome)

namespace Phase

/-- The number of steps that a job takes from here on, at most. -/
def remaining : Phase → Nat
  | begun => 4
  | probed _ => 3
  | stale => 2
  | made _ => 1
  | ended _ => 0

/-- Where a job stands that has looked at all that it needs. -/
def ofPlan : Plan → Phase
  | .keep => ended (.ok .upToDate)
  | .fail error => ended (.error error)
  | .write text => made text

end Phase

variable {phase : Phase}

/-! ## What a job sees -/

namespace PatchJob

/-- Where a job stands after its next look at the files. -/
def look (files : Files) (vendor : String) (catalog : Option Nat) (job : PatchJob) : Phase → Phase
  | .begun =>
    match files.modified job.artifact with
    | .ok built => .probed built
    | .error _ => .stale
  | .probed built =>
    match files.modified job.source with
    | .ok changed =>
      if built ≤ changed || catalog.any (built ≤ ·) then .stale else .ended (.ok .upToDate)
    | .error _ => .stale
  | .stale =>
    match files.read job.source with
    | .error fault => .ended (.error (.read fault))
    | .ok bytes =>
      match Transform.applyAll vendor job.transforms (Text.decode bytes) with
      | .error error => .ended (.error (.transform error))
      | .ok text => .made text
  | .made text => .made text
  | .ended result => .ended result

theorem look_of_remaining_le (h : phase.remaining ≤ 1) :
    job.look files vendor catalog phase = phase := by
  cases phase with
  | made text => rfl
  | ended result => rfl
  | begun => simp [Phase.remaining] at h
  | probed built => simp [Phase.remaining] at h
  | stale => simp [Phase.remaining] at h

/-- What a look can find, and where the job stands then. -/
inductive Finds (files : Files) (catalog : Option Nat) (job : PatchJob) : Phase → Phase → Prop where
  | built {built : Nat} (h : files.modified job.artifact = .ok built) :
      Finds files catalog job .begun (.probed built)
  | unbuilt : Finds files catalog job .begun .stale
  | old {built : Nat} : Finds files catalog job (.probed built) .stale
  | fresh {built changed : Nat} (h : files.modified job.source = .ok changed)
      (hlt : changed < built)
      (hcatalog : ∀ time ∈ catalog, time < built) :
      Finds files catalog job (.probed built) (.ended (.ok .upToDate))
  | failed {error : PatchError} : Finds files catalog job .stale (.ended (.error error))
  | made {bytes : List UInt8} {text : String} (h : files.read job.source = .ok bytes) :
      Finds files catalog job .stale (.made text)

theorem finds_look (h : 1 < phase.remaining) :
    job.Finds files catalog phase (job.look files vendor catalog phase) := by
  cases phase with
  | made text => simp [Phase.remaining] at h
  | ended result => simp [Phase.remaining] at h
  | begun =>
    rw [look]
    cases hbuilt : files.modified job.artifact with
    | error fault => exact .unbuilt
    | ok built => exact .built hbuilt
  | probed built =>
    rw [look]
    cases hchanged : files.modified job.source with
    | error fault => exact .old
    | ok changed =>
      dsimp only
      split_ifs with hold
      · exact .old
      · rw [Bool.not_eq_true, Bool.or_eq_false_iff, decide_eq_false_iff_not, Nat.not_le] at hold
        refine .fresh hchanged hold.1 fun time htime => ?_
        rw [Option.mem_def] at htime
        simpa [htime] using hold.2
  | stale =>
    rw [look]
    cases hread : files.read job.source with
    | error fault => exact .failed
    | ok bytes =>
      dsimp only
      split
      · exact .failed
      · exact .made hread

/-- Every look brings a job on. -/
theorem remaining_look_lt (h : 1 < phase.remaining) :
    (job.look files vendor catalog phase).remaining < phase.remaining := by
  have hfinds : job.Finds files catalog phase (job.look files vendor catalog phase) := finds_look h
  revert hfinds
  generalize job.look files vendor catalog phase = next
  intro hfinds
  cases hfinds <;> simp [Phase.remaining]

/-- A look does not rebuild anything. -/
theorem look_ne_rebuilt (h : 1 < phase.remaining) :
    job.look files vendor catalog phase ≠ .ended (.ok .rebuilt) := by
  have hfinds : job.Finds files catalog phase (job.look files vendor catalog phase) := finds_look h
  intro hrebuilt
  rw [hrebuilt] at hfinds
  cases hfinds

theorem look_ofPlan (plan : Plan) :
    job.look files vendor catalog (.ofPlan plan) = .ofPlan plan := by
  cases plan <;> rfl

/-- A job that has found its artifact stale plans as it would at once. -/
theorem look_stale (h : job.isStale files catalog = true) :
    job.look files vendor catalog .stale = .ofPlan (job.plan files vendor catalog) := by
  cases hread : files.read job.source with
  | error fault => simp [look, plan, h, hread, Phase.ofPlan]
  | ok bytes =>
    cases happly : Transform.applyAll vendor job.transforms (Text.decode bytes) <;>
      simp [look, plan, h, hread, happly, Phase.ofPlan]

/-- The two times tell whether the artifact is stale. -/
theorem look_probed {built : Nat} (h : files.modified job.artifact = .ok built) :
    job.look files vendor catalog (.probed built) =
      if job.isStale files catalog then .stale else .ended (.ok .upToDate) := by
  cases hchanged : files.modified job.source <;> simp [look, isStale, h, hchanged]

/-- After three looks a job has made its plan. -/
theorem look_look_look (files : Files) (vendor : String) (catalog : Option Nat) (job : PatchJob) :
    job.look files vendor catalog
      (job.look files vendor catalog (job.look files vendor catalog .begun)) =
      .ofPlan (job.plan files vendor catalog) := by
  cases hbuilt : files.modified job.artifact with
  | error fault =>
    have hstale : job.isStale files catalog = true := by simp [isStale, hbuilt]
    have hbegun : job.look files vendor catalog .begun = .stale := by simp [look, hbuilt]
    rw [hbegun, look_stale hstale, look_ofPlan]
  | ok built =>
    have hbegun : job.look files vendor catalog .begun = .probed built := by simp [look, hbuilt]
    rw [hbegun, look_probed hbuilt]
    cases hstale : job.isStale files catalog with
    | true => exact look_stale hstale
    | false => simp [look, plan, hstale, Phase.ofPlan]

/-- What a job that has come so far has seen, if the files are as they were when it began. -/
def OnTrack (files : Files) (vendor : String) (catalog : Option Nat) (job : PatchJob) : Phase → Prop
  | .begun => True
  | .probed built => files.modified job.artifact = .ok built
  | .stale => job.isStale files catalog = true
  | .made text => job.plan files vendor catalog = .write text
  | .ended result => ∀ now, (job.run files vendor catalog now).1 = result

theorem onTrack_ofPlan (files : Files) (vendor : String) (catalog : Option Nat) (job : PatchJob) :
    job.OnTrack files vendor catalog (.ofPlan (job.plan files vendor catalog)) := by
  cases hplan : job.plan files vendor catalog with
  | write text => exact hplan
  | keep =>
    intro now
    rw [run, hplan, finish]
  | fail error =>
    intro now
    rw [run, hplan, finish]

/-- A job that sees the files as they were when it began stays on track. -/
theorem onTrack_look (h : job.OnTrack files vendor catalog phase) :
    job.OnTrack files vendor catalog (job.look files vendor catalog phase) := by
  cases phase with
  | made text => exact h
  | ended result => exact h
  | begun => cases hbuilt : files.modified job.artifact <;> simp [look, OnTrack, isStale, hbuilt]
  | probed built =>
    rw [look_probed h]
    split_ifs with hstale
    · exact hstale
    · intro now
      simp [run, plan, hstale, finish]
  | stale =>
    rw [look_stale h]
    exact onTrack_ofPlan files vendor catalog job

end PatchJob

/-! ## Courses -/

/-- The files, and how far each job has come. -/
structure Course where
  files : Files
  jobs : List (PatchJob × Phase)

namespace Course

/-- No job has begun. -/
def start (files : Files) (jobs : List PatchJob) : Course :=
  ⟨files, jobs.map fun job => (job, .begun)⟩

/-- One job goes on. -/
inductive Step (vendor : String) (catalog : Option Nat) (times : Nat → Prop) :
    Course → Course → Prop where
  | look {files : Files} {front rest : List (PatchJob × Phase)} {job : PatchJob} {phase : Phase}
      (h : 1 < phase.remaining) :
      Step vendor catalog times ⟨files, front ++ (job, phase) :: rest⟩
        ⟨files, front ++ (job, job.look files vendor catalog phase) :: rest⟩
  | write {files : Files} {front rest : List (PatchJob × Phase)} {job : PatchJob}
      {text : String} {now : Nat}
      (h : times now) :
      Step vendor catalog times ⟨files, front ++ (job, .made text) :: rest⟩
        ⟨(job.finish files now (.write text)).2,
          front ++ (job, .ended (job.finish files now (.write text)).1) :: rest⟩

/-- Jobs go on in some order. -/
abbrev Reaches (vendor : String) (catalog : Option Nat) (times : Nat → Prop) :
    Course → Course → Prop :=
  ReflTransGen (Step vendor catalog times)

variable {course next : Course} {front rest : List (PatchJob × Phase)}

/-- The number of steps that are left, at most. -/
def work (course : Course) : Nat :=
  (course.jobs.map fun entry => entry.2.remaining).sum

theorem Step.work_lt (h : Step vendor catalog times course next) : next.work < course.work := by
  cases h with
  | @look files front rest job phase h =>
    have hlt : (job.look files vendor catalog phase).remaining < phase.remaining :=
      PatchJob.remaining_look_lt h
    simp only [work, List.map_append, List.map_cons, List.sum_append, List.sum_cons]
    omega
  | write h =>
    simp only [work, List.map_append, List.map_cons, List.sum_append, List.sum_cons,
      Phase.remaining]
    omega

/-- The jobs that are under way stay the same. -/
theorem Step.map_fst (h : Step vendor catalog times course next) :
    next.jobs.map Prod.fst = course.jobs.map Prod.fst := by
  cases h <;> simp

theorem map_fst_of_reaches (h : Reaches vendor catalog times (start files jobs) course) :
    course.jobs.map Prod.fst = jobs := by
  induction h with
  | refl =>
    rw [start, List.map_map]
    exact List.map_id jobs
  | tail _ hstep ih => rw [hstep.map_fst, ih]

/-- What holds of all jobs holds of one of them, and of the others. -/
theorem forall_mem_iff {property : PatchJob × Phase → Prop} {phase : Phase} :
    (∀ entry ∈ front ++ (job, phase) :: rest, property entry) ↔
      property (job, phase) ∧ ∀ entry ∈ front ++ rest, property entry := by
  rw [List.forall_mem_append, List.forall_mem_append, List.forall_mem_cons, and_left_comm]

/-- A job that has not ended can go on. -/
theorem exists_step (hnow : times now) {entry : PatchJob × Phase} (hmem : entry ∈ course.jobs)
    (h : 0 < entry.2.remaining) : ∃ next, Step vendor catalog times course next := by
  obtain ⟨files, jobs⟩ := course
  obtain ⟨job, phase⟩ := entry
  obtain ⟨front, rest, rfl⟩ := List.append_of_mem hmem
  cases phase with
  | begun => exact ⟨_, .look (by decide)⟩
  | probed built => exact ⟨_, .look (by simp [Phase.remaining])⟩
  | stale => exact ⟨_, .look (by decide)⟩
  | made text => exact ⟨_, .write hnow⟩
  | ended result => simp [Phase.remaining] at h

/-! ### One job on its own -/

theorem reaches_look (files : Files) (job : PatchJob) (phase : Phase) :
    Reaches vendor catalog times ⟨files, front ++ (job, phase) :: rest⟩
      ⟨files, front ++ (job, job.look files vendor catalog phase) :: rest⟩ := by
  by_cases h : 1 < phase.remaining
  · exact .single (.look h)
  · rw [PatchJob.look_of_remaining_le (Nat.not_lt.mp h)]

theorem reaches_plan (files : Files) (job : PatchJob) :
    Reaches vendor catalog times ⟨files, front ++ (job, .begun) :: rest⟩
      ⟨files, front ++ (job, .ofPlan (job.plan files vendor catalog)) :: rest⟩ := by
  rw [← PatchJob.look_look_look]
  exact ((reaches_look files job _).trans (reaches_look files job _)).trans
    (reaches_look files job _)

theorem reaches_finish (hnow : times now) (files : Files) (job : PatchJob) (plan : Plan) :
    Reaches vendor catalog times ⟨files, front ++ (job, .ofPlan plan) :: rest⟩
      ⟨(job.finish files now plan).2,
        front ++ (job, .ended (job.finish files now plan).1) :: rest⟩ := by
  cases plan with
  | keep => exact .refl
  | fail error => exact .refl
  | write text => exact .single (.write hnow)

theorem reaches_run (hnow : times now) (files : Files) (job : PatchJob) :
    Reaches vendor catalog times ⟨files, front ++ (job, .begun) :: rest⟩
      ⟨(job.run files vendor catalog now).2,
        front ++ (job, .ended (job.run files vendor catalog now).1) :: rest⟩ :=
  (reaches_plan files job).trans (reaches_finish hnow files job _)

end Course

/-! ## Passes as interleavings -/

namespace Pass

open Course

/-- The course in which every job has ended as the pass says. -/
def course (pass : Pass) : Course :=
  ⟨pass.files, pass.results.map fun r => (r.job, .ended r.result)⟩

/-- Steps of the jobs in some order have led to the pass. -/
def Interleaves (files : Files) (vendor : String) (catalog : Option Nat) (times : Nat → Prop)
    (jobs : List PatchJob) (pass : Pass) : Prop :=
  Reaches vendor catalog times (.start files jobs) pass.course

/-- Each job begins when the one in front of it has ended. -/
def inTurn (vendor : String) (catalog : Option Nat) (now : Nat) : List PatchJob → Files → Pass
  | [], files => ⟨[], files⟩
  | job :: rest, files =>
    let (result, files) := job.run files vendor catalog now
    let pass := inTurn vendor catalog now rest files
    { pass with results := ⟨job, result⟩ :: pass.results }

theorem reaches_plans (files : Files) (jobs : List PatchJob) (front : List (PatchJob × Phase)) :
    Reaches vendor catalog times ⟨files, front ++ jobs.map fun job => (job, .begun)⟩
      ⟨files, front ++ jobs.map fun job => (job, .ofPlan (job.plan files vendor catalog))⟩ := by
  induction jobs generalizing front with
  | nil => exact .refl
  | cons job rest ih =>
    have hrest := ih (front ++ [(job, .ofPlan (job.plan files vendor catalog))])
    rw [List.append_assoc, List.append_assoc] at hrest
    exact (reaches_plan files job).trans hrest

theorem reaches_finish (hnow : times now) (planned : List (PatchJob × Plan)) (files : Files)
    (front : List (PatchJob × Phase)) :
    Reaches vendor catalog times
      ⟨files, front ++ planned.map fun entry => (entry.1, .ofPlan entry.2)⟩
      ⟨(finish now planned files).files,
        front ++ (finish now planned files).results.map fun r => (r.job, .ended r.result)⟩ := by
  induction planned generalizing files front with
  | nil => exact .refl
  | cons entry rest ih =>
    obtain ⟨job, plan⟩ := entry
    have hrest := ih (job.finish files now plan).2
      (front ++ [(job, .ended (job.finish files now plan).1)])
    rw [List.append_assoc, List.append_assoc] at hrest
    exact (Course.reaches_finish hnow files job plan).trans hrest

/-- All jobs may look before the first one writes. -/
theorem interleaves_run (files : Files) (vendor : String) (catalog : Option Nat)
    (jobs : List PatchJob) (hnow : times now) :
    (run files vendor catalog now jobs).Interleaves files vendor catalog times jobs := by
  have hplans : Reaches vendor catalog times (.start files jobs)
      ⟨files, jobs.map fun job => (job, .ofPlan (job.plan files vendor catalog))⟩ :=
    reaches_plans files jobs []
  have hfinish : Reaches vendor catalog times _ (run files vendor catalog now jobs).course :=
    reaches_finish hnow (jobs.map fun job => (job, job.plan files vendor catalog)) files []
  rw [List.map_map] at hfinish
  exact hplans.trans hfinish

theorem reaches_inTurn (hnow : times now) (jobs : List PatchJob) (files : Files)
    (front : List (PatchJob × Phase)) :
    Reaches vendor catalog times ⟨files, front ++ jobs.map fun job => (job, .begun)⟩
      ⟨(inTurn vendor catalog now jobs files).files,
        front ++ (inTurn vendor catalog now jobs files).results.map fun r =>
          (r.job, .ended r.result)⟩ := by
  induction jobs generalizing files front with
  | nil => exact .refl
  | cons job rest ih =>
    have hrest := ih (job.run files vendor catalog now).2
      (front ++ [(job, .ended (job.run files vendor catalog now).1)])
    rw [List.append_assoc, List.append_assoc] at hrest
    exact (reaches_run hnow files job).trans hrest

/-- Each job may wait for the one in front of it. -/
theorem interleaves_inTurn (files : Files) (vendor : String) (catalog : Option Nat)
    (jobs : List PatchJob) (hnow : times now) :
    (inTurn vendor catalog now jobs files).Interleaves files vendor catalog times jobs :=
  reaches_inTurn hnow jobs files []

/-- If every job has seen the files as they were at the beginning, it has ended as it would
alone. -/
theorem results_eq_of_onTrack {pass : Pass}
    (h : ∀ entry ∈ pass.course.jobs, entry.1.OnTrack files vendor catalog entry.2)
    (hjobs : pass.course.jobs.map Prod.fst = jobs) (now : Nat) :
    pass.results = jobs.map fun job => ⟨job, (job.run files vendor catalog now).1⟩ := by
  subst hjobs
  rw [course, List.map_map, List.map_map]
  conv_lhs => rw [← List.map_id pass.results]
  refine List.map_congr_left fun r hr => ?_
  have honTrack := h _ (List.mem_map_of_mem hr)
  obtain ⟨job, result⟩ := r
  exact congrArg (JobResult.mk job) (honTrack now).symm

end Pass

namespace Course

/-- If all jobs have ended, the course is that of a pass. -/
theorem exists_eq_course {course : Course} (h : ∀ entry ∈ course.jobs, entry.2.remaining = 0) :
    ∃ pass : Pass, course = pass.course := by
  obtain ⟨files, jobs⟩ := course
  suffices ∃ results : List JobResult, jobs = results.map fun r => (r.job, .ended r.result) by
    obtain ⟨results, rfl⟩ := this
    exact ⟨⟨results, files⟩, rfl⟩
  induction jobs with
  | nil => exact ⟨[], rfl⟩
  | cons entry rest ih =>
    obtain ⟨hentry, hrest⟩ := List.forall_mem_cons.mp h
    obtain ⟨results, hresults⟩ := ih hrest
    obtain ⟨job, phase⟩ := entry
    cases phase with
    | ended result => exact ⟨⟨job, result⟩ :: results, by rw [hresults, List.map_cons]⟩
    | _ => simp [Phase.remaining] at hentry

/-- **Every course comes to an end**, whichever steps have been taken so far. -/
theorem exists_pass (hnow : times now) (course : Course) :
    ∃ pass : Pass, Reaches vendor catalog times course pass.course := by
  induction hwork : course.work using Nat.strongRecOn generalizing course with
  | ind work ih =>
    by_cases h : ∀ entry ∈ course.jobs, entry.2.remaining = 0
    · obtain ⟨pass, rfl⟩ := exists_eq_course h
      exact ⟨pass, .refl⟩
    · push Not at h
      obtain ⟨entry, hmem, hentry⟩ := h
      obtain ⟨next, hstep⟩ : ∃ next, Step vendor catalog times course next :=
        exists_step hnow hmem (Nat.pos_of_ne_zero hentry)
      obtain ⟨pass, hpass⟩ := ih next.work (hwork ▸ hstep.work_lt) next rfl
      exact ⟨pass, .head hstep hpass⟩

end Course

end Retrofit

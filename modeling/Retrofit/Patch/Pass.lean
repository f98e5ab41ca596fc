import Retrofit.Patch.File

/-!
# Patching all packages

**A pass.** The jobs go on side by side. Each one probes times, reads its source and writes its
artifact, and between these steps any other job may take some of its own. So what a job sees depends
on the schedule. `Pass.run` is one of the schedules: all jobs look at the files before the first one
writes, and then they write in order. The others are those of `Pass.Interleaves`. In all of them a
job that fails does not stop the others.

**The report.** However the jobs have gone on, every job has one event, in the order of the jobs.
The pass fails if some job failed, with all the failures in this order.
-/

namespace Retrofit

/-- What is reported while a project is worked on. -/
inductive Event where
  /-- A new stage begins. -/
  | section (title : String)
  | installed (name version : String)
  | patched (artifact : String)
  | upToDate (artifact : String)
  | failed (source reason : String)
  | warning (text : String)
deriving DecidableEq, Repr

structure PatchReport where
  rebuilt : List String := []
  upToDate : List String := []
deriving DecidableEq, Repr

/-- The number of artifacts. -/
def PatchReport.total (r : PatchReport) : Nat :=
  r.rebuilt.length + r.upToDate.length

/-- A source that could not be patched, and why. -/
structure PatchFailure where
  source : String
  error : PatchError
deriving DecidableEq, Repr

/-- The wording of failures: their number, and a line for each. -/
def PatchFailure.describe (failures : List PatchFailure) : String :=
  toString failures.length ++ " patched file(s) failed:"
    ++ String.join (failures.map fun f => "\n  " ++ f.source ++ ": " ++ f.error.message)

/-- How a job has ended. -/
structure JobResult where
  job : PatchJob
  result : Except PatchError Outcome

namespace JobResult

def event (r : JobResult) : Event :=
  match r.result with
  | .ok .rebuilt => .patched r.job.artifact
  | .ok .upToDate => .upToDate r.job.artifact
  | .error error => .failed r.job.source error.message

def failure? (r : JobResult) : Option PatchFailure :=
  match r.result with
  | .ok _ => none
  | .error error => some ⟨r.job.source, error⟩

def artifact? (outcome : Outcome) (r : JobResult) : Option String :=
  match r.result with
  | .ok o => if o = outcome then some r.job.artifact else none
  | .error _ => none

end JobResult

/-- What a pass has done. -/
structure Pass where
  results : List JobResult
  files : Files

namespace Pass

/-- Ends jobs that have looked at the files, one after the other. -/
def finish (now : Nat) : List (PatchJob × Plan) → Files → Pass
  | [], files => ⟨[], files⟩
  | (job, plan) :: rest, files =>
    let (result, files) := job.finish files now plan
    let pass := finish now rest files
    { pass with results := ⟨job, result⟩ :: pass.results }

/-- The schedule in which all jobs look at the files before the first one writes, one of the many in
which their steps may follow one another. -/
def run (files : Files) (vendor : String) (catalog : Option Nat) (now : Nat)
    (jobs : List PatchJob) : Pass :=
  finish now (jobs.map fun job => (job, job.plan files vendor catalog)) files

def events (p : Pass) : List Event :=
  p.results.map JobResult.event

def failures (p : Pass) : List PatchFailure :=
  p.results.filterMap JobResult.failure?

/-- The artifacts of the jobs that did not fail. -/
def report (p : Pass) : PatchReport :=
  ⟨p.results.filterMap (JobResult.artifact? .rebuilt),
    p.results.filterMap (JobResult.artifact? .upToDate)⟩

/-- The report of a pass in which no job failed. -/
def outcome (p : Pass) : Except (List PatchFailure) PatchReport :=
  if p.failures.isEmpty then .ok p.report else .error p.failures

end Pass

end Retrofit

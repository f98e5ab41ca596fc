import Retrofit.Files.Basic
import Retrofit.Patch.Job
import Retrofit.Transform.Apply

/-!
# Patching a file

**Staleness.** An artifact is up to date if it is newer than its source and newer than the catalog
that its transforms come from. If the time of either file cannot be told, it is stale.

**Planning and writing.** `PatchJob.plan` decides from the files alone whether the artifact is up to
date, what to write, or why that cannot be told. Only `PatchJob.finish` changes anything, and only
by writing the whole artifact.
-/

namespace Retrofit

inductive PatchError where
  /-- The source cannot be read. -/
  | read (fault : FileFault)
  /-- The artifact cannot be written. -/
  | write (fault : FileFault)
  | transform (error : TransformError)
deriving DecidableEq, Repr

def PatchError.message : PatchError → String
  | .read fault => "Failed to read original: " ++ fault.message
  | .write fault => "Failed to write artifact: " ++ fault.message
  | .transform error => error.message

/-- How a job ends well. -/
inductive Outcome where
  | rebuilt
  | upToDate
deriving DecidableEq, Repr

/-- What is to be done for a job. -/
inductive Plan where
  | keep
  | write (text : String)
  | fail (error : PatchError)
deriving DecidableEq, Repr

namespace PatchJob

/-- Whether the artifact has to be rebuilt. -/
def isStale (files : Files) (catalog : Option Nat) (job : PatchJob) : Bool :=
  match files.modified job.artifact, files.modified job.source with
  | .ok artifact, .ok source => artifact ≤ source || catalog.any (artifact ≤ ·)
  | _, _ => true

/-- What is to be done for a job; `vendor` is the directory of libraries. -/
def plan (files : Files) (vendor : String) (catalog : Option Nat) (job : PatchJob) : Plan :=
  if !job.isStale files catalog then .keep
  else match files.read job.source with
    | .error fault => .fail (.read fault)
    | .ok bytes =>
      match Transform.applyAll vendor job.transforms (Text.decode bytes) with
      | .error error => .fail (.transform error)
      | .ok text => .write text

/-- Carries out a plan. -/
def finish (files : Files) (now : Nat) (job : PatchJob) (plan : Plan) :
    Except PatchError Outcome × Files :=
  match plan with
  | .keep => (.ok .upToDate, files)
  | .fail error => (.error error, files)
  | .write text =>
    match files.write job.artifact (Text.encode text) now with
    | .error fault => (.error (.write fault), files)
    | .ok files => (.ok .rebuilt, files)

/-- Patches a file if its artifact is stale. -/
def run (files : Files) (vendor : String) (catalog : Option Nat) (now : Nat) (job : PatchJob) :
    Except PatchError Outcome × Files :=
  job.finish files now (job.plan files vendor catalog)

end PatchJob

end Retrofit

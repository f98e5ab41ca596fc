import Retrofit.Patch.File
import Retrofit.Proofs.Patch.Job
import Retrofit.Proofs.Text.Utf8

/-!
# Staleness over whole histories

**Theorem (`artifact_of_patch_ok`).** Take any history of a job that starts without an artifact: the
source and the transforms change, files are deleted, the clock advances or stands still, and the
job is run any number of times. Whenever a run ends well, the artifact holds what the transforms of
that time make of the source of that time, whether the run has written it or kept it.

The invariant `Inv` speaks of an artifact that is there. It is a file from no later than now, and
it is

* *fresh*: its content is what the transforms make of the source, or
* *outdated*: the source or the catalog has a time that is not before the artifact's.

Only a run makes an artifact, and that one is fresh. What makes a fresh artifact wrong is a change
of the source or of the transforms, and the change carries the time of the clock, which the
artifact's cannot exceed. Equal times count as outdated, so this needs no clock that advances
between two steps. A run that fails leaves the files as they are.
-/

namespace Retrofit

variable {files : Files} {vendor : String} {catalog : Option Nat} {now : Nat} {job : PatchJob}

/-! ## One run -/

namespace PatchJob

/-- What the transforms of a job make of its source, as bytes. -/
def Makes (vendor : String) (files : Files) (job : PatchJob) (content : List UInt8) : Prop :=
  ∃ bytes text, files.read job.source = .ok bytes ∧
    Transform.applyAll vendor job.transforms (Text.decode bytes) = .ok text ∧
    content = Text.encode text

/-- The source or the catalog is not older than an artifact from the time `built`. A source that is
gone counts as well. -/
def Outdated (files : Files) (catalog : Option Nat) (job : PatchJob) (built : Nat) : Prop :=
  (∀ node, files.get job.source = .ok node → built ≤ node.modified) ∨
    ∃ changed, catalog = some changed ∧ built ≤ changed

/-- An artifact that need not be rebuilt is there, and not outdated. -/
theorem not_outdated_of_isStale_eq_false (h : job.isStale files catalog = false) :
    ∃ node, files.get job.artifact = .ok node ∧ ¬ job.Outdated files catalog node.modified := by
  unfold isStale at h
  cases hartifact : files.modified job.artifact with
  | error fault => simp [hartifact] at h
  | ok built =>
    cases hsource : files.modified job.source with
    | error fault => simp [hartifact, hsource] at h
    | ok changed =>
      simp only [hartifact, hsource, Bool.or_eq_false_iff, decide_eq_false_iff_not] at h
      obtain ⟨artifact, hget, rfl⟩ := Files.modified_eq_ok.mp hartifact
      obtain ⟨source, hgetSource, rfl⟩ := Files.modified_eq_ok.mp hsource
      refine ⟨artifact, hget, ?_⟩
      rintro (holder | ⟨time, rfl, htime⟩)
      · exact h.1 (holder source hgetSource)
      · simp [htime] at h

/-- A run keeps an artifact that is not stale, fails without a change, or writes what the transforms
make of the source. -/
theorem run_cases (files : Files) (vendor : String) (catalog : Option Nat) (now : Nat)
    (job : PatchJob) :
    (job.run files vendor catalog now = (.ok .upToDate, files) ∧
        job.isStale files catalog = false) ∨
      (∃ error, job.run files vendor catalog now = (.error error, files)) ∨
      ∃ content new, job.Makes vendor files content ∧
        files.write job.artifact content now = .ok new ∧
        job.run files vendor catalog now = (.ok .rebuilt, new) := by
  unfold run plan
  cases hstale : job.isStale files catalog with
  | false => exact .inl ⟨rfl, rfl⟩
  | true =>
    refine .inr ?_
    cases hread : files.read job.source with
    | error fault => exact .inl ⟨_, rfl⟩
    | ok bytes =>
      cases happly : Transform.applyAll vendor job.transforms (Text.decode bytes) with
      | error error => exact .inl ⟨.transform error, by simp [happly, finish]⟩
      | ok text =>
        cases hwrite : files.write job.artifact (Text.encode text) now with
        | error fault => exact .inl ⟨.write fault, by simp [happly, finish, hwrite]⟩
        | ok new =>
          exact .inr ⟨_, new, ⟨bytes, text, hread, happly, rfl⟩, hwrite,
            by simp [happly, finish, hwrite]⟩

end PatchJob

/-! ## Histories -/

/-- A job, the files it works on, the time of the catalog its transforms come from, and the
clock. -/
structure JobState where
  files : Files
  job : PatchJob
  catalog : Option Nat
  now : Nat

/-- What can happen to a job. -/
inductive JobEvent where
  | wait (ticks : Nat)
  | editSource (content : List UInt8)
  | deleteSource
  /-- The catalog is edited, and the job has other transforms from then on. -/
  | editCatalog (transforms : List Transform)
  | deleteArtifact
  | patch

namespace JobState

variable {s : JobState} {event : JobEvent}

/-- The job is run with its transforms, the catalog and the clock as they are. -/
def patch (vendor : String) (s : JobState) : Except PatchError Outcome × Files :=
  s.job.run s.files vendor s.catalog s.now

/-- The state after an event; `vendor` is the directory of libraries. An edit that fails changes
nothing. -/
def step (vendor : String) (s : JobState) : JobEvent → JobState
  | .wait ticks => { s with now := s.now + ticks }
  | .editSource content =>
    match s.files.write s.job.source content s.now with
    | .error _ => s
    | .ok files => { s with files }
  | .deleteSource => { s with files := s.files.remove s.job.source s.now }
  | .editCatalog transforms =>
    { s with job := { s.job with transforms }, catalog := some s.now }
  | .deleteArtifact => { s with files := s.files.remove s.job.artifact s.now }
  | .patch => { s with files := (s.patch vendor).2 }

/-- The state after a history. -/
def after (vendor : String) (s : JobState) (events : List JobEvent) : JobState :=
  events.foldl (step vendor) s

/-- Nothing moves the source or the artifact. -/
theorem paths_step (vendor : String) (s : JobState) (event : JobEvent) :
    (s.step vendor event).job.source = s.job.source ∧
      (s.step vendor event).job.artifact = s.job.artifact := by
  cases event with
  | editSource content =>
    rw [step]
    cases s.files.write s.job.source content s.now <;> exact ⟨rfl, rfl⟩
  | _ => exact ⟨rfl, rfl⟩

theorem paths_after (vendor : String) (s : JobState) (events : List JobEvent) :
    (s.after vendor events).job.source = s.job.source ∧
      (s.after vendor events).job.artifact = s.job.artifact := by
  induction events generalizing s with
  | nil => exact ⟨rfl, rfl⟩
  | cons event rest ih =>
    obtain ⟨hsource, hartifact⟩ := paths_step vendor s event
    rw [← hsource, ← hartifact]
    exact ih (s.step vendor event)

/-! ## The invariant -/

/-- An artifact that is there is a file from no later than now, and fresh or outdated. The source is
another file. -/
structure Inv (vendor : String) (s : JobState) : Prop where
  apart : s.files.Apart s.job.source s.job.artifact
  artifact : ∀ node, s.files.get s.job.artifact = .ok node → ∃ content built,
    node = .file content built ∧ built ≤ s.now ∧
      (s.job.Makes vendor s.files content ∨ s.job.Outdated s.files s.catalog built)

theorem inv_of_no_artifact (apart : s.files.Apart s.job.source s.job.artifact)
    (hnone : ∀ node, s.files.get s.job.artifact ≠ .ok node) : Inv vendor s :=
  ⟨apart, fun node h => absurd h (hnone node)⟩

theorem inv_wait (inv : Inv vendor s) (ticks : Nat) : Inv vendor (s.step vendor (.wait ticks)) := by
  refine ⟨inv.apart, fun node hnode => ?_⟩
  obtain ⟨content, built, rfl, hbuilt, h⟩ := inv.artifact node hnode
  exact ⟨content, built, rfl, Nat.le_add_right_of_le hbuilt, h⟩

/-- An edited source has the time of the clock, so the artifact is outdated. -/
theorem inv_editSource (inv : Inv vendor s) (content : List UInt8) :
    Inv vendor (s.step vendor (.editSource content)) := by
  rw [step]
  cases hwrite : s.files.write s.job.source content s.now with
  | error fault => exact inv
  | ok files =>
    refine ⟨inv.apart.within (Files.write_within hwrite), fun node hnode => ?_⟩
    obtain ⟨before, hbefore, hbecomes⟩ := Files.get_of_get_write hwrite inv.apart.symm hnode
    obtain ⟨content', built, rfl, hbuilt, -⟩ := inv.artifact before hbefore
    cases hbecomes
    refine ⟨content', built, rfl, hbuilt, .inr (.inl fun source hsource => ?_)⟩
    rw [Files.get_write_self hwrite, Except.ok.injEq] at hsource
    rw [← hsource]
    exact hbuilt

/-- A fresh artifact is outdated once its source is gone, and an outdated one stays so. -/
theorem inv_deleteSource (inv : Inv vendor s) : Inv vendor (s.step vendor .deleteSource) := by
  refine ⟨inv.apart.within Files.remove_within, fun node hnode => ?_⟩
  obtain ⟨before, hbefore, hbecomes⟩ := Files.get_of_get_remove hnode
  obtain ⟨content, built, rfl, hbuilt, h⟩ := inv.artifact before hbefore
  cases hbecomes
  refine ⟨content, built, rfl, hbuilt, .inr ?_⟩
  rcases h with ⟨bytes, text, hread, -, -⟩ | holder | hcatalog
  · obtain ⟨time, hget⟩ := Files.read_eq_ok.mp hread
    exact .inl fun source hsource => absurd hsource (Files.get_remove_self hget)
  · refine .inl fun source hsource => ?_
    obtain ⟨earlier, hearlier, hbecomes⟩ := Files.get_of_get_remove hsource
    rcases hbecomes.modified_eq with hsame | hnow
    · exact hsame ▸ holder earlier hearlier
    · exact hnow ▸ hbuilt
  · exact .inr hcatalog

theorem inv_editCatalog (inv : Inv vendor s) (transforms : List Transform) :
    Inv vendor (s.step vendor (.editCatalog transforms)) := by
  refine ⟨inv.apart, fun node hnode => ?_⟩
  obtain ⟨content, built, rfl, hbuilt, -⟩ := inv.artifact node hnode
  exact ⟨content, built, rfl, hbuilt, .inr (.inr ⟨s.now, rfl, hbuilt⟩)⟩

theorem inv_deleteArtifact (inv : Inv vendor s) : Inv vendor (s.step vendor .deleteArtifact) := by
  refine ⟨inv.apart.within Files.remove_within, fun node hnode => ?_⟩
  obtain ⟨before, hbefore, -⟩ := Files.get_of_get_remove hnode
  obtain ⟨content, built, rfl, -, -⟩ := inv.artifact before hbefore
  exact absurd hnode (Files.get_remove_self hbefore)

/-- What a run has written is there and fresh. -/
theorem makes_of_write {new : Files} {content : List UInt8} (inv : Inv vendor s)
    (hmakes : s.job.Makes vendor s.files content)
    (hwrite : s.files.write s.job.artifact content s.now = .ok new) :
    new.get s.job.artifact = .ok (.file content s.now) ∧ s.job.Makes vendor new content := by
  obtain ⟨bytes, text, hread, happly, hcontent⟩ := hmakes
  obtain ⟨time, hget⟩ := Files.read_eq_ok.mp hread
  have hkept := (Files.get_file_write_other hwrite inv.apart).mpr hget
  exact ⟨Files.get_write_self hwrite, bytes, text, Files.read_eq_ok.mpr ⟨time, hkept⟩, happly,
    hcontent⟩

theorem inv_patch (inv : Inv vendor s) : Inv vendor (s.step vendor .patch) := by
  rw [step, patch]
  rcases s.job.run_cases s.files vendor s.catalog s.now with
    ⟨hrun, -⟩ | ⟨error, hrun⟩ | ⟨content, new, hmakes, hwrite, hrun⟩
  · rw [hrun]
    exact inv
  · rw [hrun]
    exact inv
  · rw [hrun]
    refine ⟨inv.apart.within (Files.write_within hwrite), fun node hnode => ?_⟩
    obtain ⟨hget, hmakes⟩ := makes_of_write inv hmakes hwrite
    have heq : node = .file content s.now := Except.ok.inj (hnode.symm.trans hget)
    exact ⟨content, s.now, heq, Nat.le_refl _, .inl hmakes⟩

theorem inv_step (inv : Inv vendor s) (event : JobEvent) : Inv vendor (s.step vendor event) := by
  cases event with
  | wait ticks => exact inv_wait inv ticks
  | editSource content => exact inv_editSource inv content
  | deleteSource => exact inv_deleteSource inv
  | editCatalog transforms => exact inv_editCatalog inv transforms
  | deleteArtifact => exact inv_deleteArtifact inv
  | patch => exact inv_patch inv

theorem inv_after (inv : Inv vendor s) (events : List JobEvent) :
    Inv vendor (s.after vendor events) := by
  induction events generalizing s with
  | nil => exact inv
  | cons event rest ih => exact ih (inv_step inv event)

/-! ## What a run leaves -/

/-- A run that ends well leaves a fresh artifact. -/
theorem makes_of_patch_ok {outcome : Outcome} {new : Files} (inv : Inv vendor s)
    (h : s.patch vendor = (.ok outcome, new)) :
    ∃ content built, new.get s.job.artifact = .ok (.file content built) ∧
      s.job.Makes vendor new content := by
  unfold patch at h
  rcases s.job.run_cases s.files vendor s.catalog s.now with
    ⟨hrun, hstale⟩ | ⟨error, hrun⟩ | ⟨content, written, hmakes, hwrite, hrun⟩
  · rw [h] at hrun
    obtain ⟨-, rfl⟩ := Prod.mk.inj hrun
    obtain ⟨node, hget, hcurrent⟩ := PatchJob.not_outdated_of_isStale_eq_false hstale
    obtain ⟨content, built, rfl, -, hfresh⟩ := inv.artifact node hget
    exact ⟨content, built, hget, hfresh.resolve_right hcurrent⟩
  · rw [h] at hrun
    exact absurd (Prod.mk.inj hrun).1 (by simp)
  · rw [h] at hrun
    obtain ⟨-, rfl⟩ := Prod.mk.inj hrun
    exact ⟨content, s.now, makes_of_write inv hmakes hwrite⟩

/-- **Staleness is sound.** Let a job start without an artifact, with a source that is another file,
as for the jobs of packages (`PatchJob.apart_ofFile`). After any history, a run that ends well
leaves an artifact whose text is what the transforms make of the source, both as they are then. -/
theorem artifact_of_patch_ok {start : JobState} {events : List JobEvent} {outcome : Outcome}
    {new : Files} (apart : start.files.Apart start.job.source start.job.artifact)
    (hnone : ∀ node, start.files.get start.job.artifact ≠ .ok node)
    (h : (start.after vendor events).patch vendor = (.ok outcome, new)) :
    ∃ bytes text, new.read start.job.source = .ok bytes ∧
      Transform.applyAll vendor (start.after vendor events).job.transforms (Text.decode bytes) =
        .ok text ∧
      new.readText start.job.artifact = .ok text := by
  have inv : Inv vendor (start.after vendor events) :=
    inv_after (inv_of_no_artifact apart hnone) events
  obtain ⟨hsource, hartifact⟩ := paths_after vendor start events
  obtain ⟨content, built, hget, bytes, text, hread, happly, rfl⟩ := makes_of_patch_ok inv h
  rw [hsource] at hread
  rw [hartifact] at hget
  refine ⟨bytes, text, hread, happly, ?_⟩
  rw [Files.readText, Files.read_eq_ok.mpr ⟨built, hget⟩]
  simp only [bind, Except.bind, Text.decode?_encode]

/-- A script of a package that has not been patched yet. -/
def unpatched : JobState where
  files := {
    nodes := [("/lib", .directory 0), ("/lib/widget", .directory 0),
      ("/lib/widget/w.js", .file (Text.encode "a") 1)]
    current := [] }
  job := PatchJob.ofFile "" "lib" "es6" "widget" ("w.js", [.append "b"])
  catalog := none
  now := 1

/-- The source is edited in the tick in which its artifact was made. -/
def edited : List JobEvent :=
  [.patch, .editSource (Text.encode "c"), .wait 1, .patch]

/-- The artifact is made twice and then kept. -/
theorem artifact_of_patch_ok_unpatched :
    unpatched.files.Apart unpatched.job.source unpatched.job.artifact ∧
      (∀ node, unpatched.files.get unpatched.job.artifact ≠ .ok node) ∧
      ∃ new, (unpatched.after "" edited).patch "" = (.ok .upToDate, new) ∧
        ∃ bytes text, new.read unpatched.job.source = .ok bytes ∧
          Transform.applyAll "" [.append "b"] (Text.decode bytes) = .ok text ∧
          new.readText unpatched.job.artifact = .ok text := by
  have hmarker : '/' ∉ "es6".toList := by decide
  have hname : Path.IsOrdinary
      (Path.basename (Path.join (Path.join "lib" "widget") "w.js")).toList := by
    unfold Path.IsOrdinary
    decide
  have apart : unpatched.files.Apart unpatched.job.source unpatched.job.artifact :=
    PatchJob.apart_ofFile hmarker "" "lib" "widget" ("w.js", [.append "b"]) hname
  have habsent : (unpatched.files.get unpatched.job.artifact).toOption = none := by decide
  have hnone : ∀ node, unpatched.files.get unpatched.job.artifact ≠ .ok node := by
    intro node h
    rw [h] at habsent
    cases habsent
  have htransforms : (unpatched.after "" edited).job.transforms = [.append "b"] := by
    decide +kernel
  have hkept : ((unpatched.after "" edited).patch "").1.toOption = some .upToDate := by
    decide +kernel
  cases hrun : (unpatched.after "" edited).patch "" with
  | mk result new =>
    rw [hrun] at hkept
    cases result with
    | error => cases hkept
    | ok outcome =>
      obtain ⟨bytes, text, hread, happly, htext⟩ := artifact_of_patch_ok apart hnone hrun
      rw [htransforms] at happly
      refine ⟨apart, hnone, new, ?_, bytes, text, hread, happly, htext⟩
      rw [show outcome = .upToDate from Option.some.inj hkept]

end JobState

end Retrofit

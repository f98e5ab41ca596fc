import Retrofit.Proofs.Patch.Accounting
import Retrofit.Proofs.Patch.Concurrency

/-!
# A second pass does nothing

**Theorem (`PackageMap.secondPassIdle`).** Let no job of some packages write the source of a job,
nor add an entry to it if it is a directory, and let what is written get times later than those of
all sources and of the catalog. If a pass over the packages succeeds, in whichever order its jobs
went on, then another one succeeds with nothing rebuilt and every artifact up to date, reads no
source, and leaves the files as they are.

In the first pass (`Course.Settling`), an artifact that was found up to date stays so: if another
job writes it once more, it gets newer still. And an artifact that a job has rebuilt is newer than
its source, which nobody has written. In the second pass no artifact is stale, so nothing is
written, and the files are the same at each step (`Pass.idle_of_not_stale`).

A directory that is taken for a source is not read as long as the artifact is newer. An artifact
that comes into it makes it the newer one, so the next pass wants to read it, and fails
(`PackageMap.not_always_secondPassIdle`).
-/

namespace Retrofit

open Relation

variable {files new : Files} {vendor : String} {catalog : Option Nat} {now : Nat}
  {times : Nat → Prop} {job : PatchJob} {jobs : List PatchJob} {phase : Phase}

namespace PatchJob

/-- What can be said of a job that has come so far, if all writes are late. -/
def Settles (files : Files) (catalog : Option Nat) (job : PatchJob) : Phase → Prop
  | .begun => True
  | .probed built => ∀ changed, files.modified job.source = .ok changed → changed < built →
      (∀ time ∈ catalog, time < built) → job.isStale files catalog = false
  | .stale => True
  | .made _ => ∃ changed, files.modified job.source = .ok changed
  | .ended (.ok _) => job.isStale files catalog = false
  | .ended (.error _) => True

theorem settles_look (hphase : 1 < phase.remaining) (h : job.Settles files catalog phase) :
    job.Settles files catalog (job.look files vendor catalog phase) := by
  have hfinds : job.Finds files catalog phase (job.look files vendor catalog phase) :=
    finds_look hphase
  revert hfinds
  generalize job.look files vendor catalog phase = next
  intro hfinds
  cases hfinds with
  | unbuilt => exact trivial
  | old => exact trivial
  | failed => exact trivial
  | fresh hchanged hlt hcatalog => exact h _ hchanged hlt hcatalog
  | built hbuilt =>
    intro changed hchanged hlt hcatalog
    exact isStale_eq_false_iff.mpr ⟨_, changed, hbuilt, hchanged, hlt, hcatalog⟩
  | made hread =>
    obtain ⟨time, hget⟩ := Files.read_eq_ok.mp hread
    exact ⟨time, Files.modified_eq_ok.mpr ⟨_, hget, rfl⟩⟩

/-! ### Writes -/

section

variable {path : String} {content : List UInt8}

theorem modified_source_write (hwrite : files.write path content now = .ok new)
    (hapart : files.Apart path job.source) (hadds : ¬ files.AddsTo path job.source)
    (changed : Nat) :
    new.modified job.source = .ok changed ↔ files.modified job.source = .ok changed := by
  simp only [Files.modified_eq_ok, Files.get_write_other hwrite hapart.symm hadds]

/-- An artifact that is up to date stays so if something is written that is newer than its
source. -/
theorem isStale_write (hwrite : files.write path content now = .ok new)
    (hapart : files.Apart path job.source) (hadds : ¬ files.AddsTo path job.source)
    (hlate : ∀ changed, files.modified job.source = .ok changed → changed < now)
    (hcatalog : ∀ time ∈ catalog, time < now) (h : job.isStale files catalog = false) :
    job.isStale new catalog = false := by
  obtain ⟨built, changed, hbuilt, hchanged, hlt, hbefore⟩ := isStale_eq_false_iff.mp h
  have hchanged' := (modified_source_write hwrite hapart hadds changed).mpr hchanged
  rw [isStale_eq_false_iff]
  rcases Files.modified_write_cases hwrite hbuilt with hbuilt | hbuilt
  · exact ⟨built, changed, hbuilt, hchanged', hlt, hbefore⟩
  · exact ⟨now, changed, hbuilt, hchanged', hlate changed hchanged, hcatalog⟩

/-- An artifact that has just been written is up to date. -/
theorem isStale_write_artifact (hwrite : files.write job.artifact content now = .ok new)
    (hapart : files.Apart job.artifact job.source)
    (hadds : ¬ files.AddsTo job.artifact job.source) {changed : Nat}
    (hchanged : files.modified job.source = .ok changed) (hlate : changed < now)
    (hcatalog : ∀ time ∈ catalog, time < now) : job.isStale new catalog = false :=
  isStale_eq_false_iff.mpr ⟨now, changed,
    Files.modified_eq_ok.mpr ⟨_, Files.get_write_self hwrite, rfl⟩,
    (modified_source_write hwrite hapart hadds changed).mpr hchanged, hlate, hcatalog⟩

theorem settles_write (hwrite : files.write path content now = .ok new)
    (hapart : files.Apart path job.source) (hadds : ¬ files.AddsTo path job.source)
    (hlate : ∀ changed, files.modified job.source = .ok changed → changed < now)
    (hcatalog : ∀ time ∈ catalog, time < now) (h : job.Settles files catalog phase) :
    job.Settles new catalog phase := by
  have hsource := modified_source_write hwrite hapart hadds
  match phase, h with
  | .begun, _ => exact trivial
  | .stale, _ => exact trivial
  | .ended (.error _), _ => exact trivial
  | .ended (.ok _), h => exact isStale_write hwrite hapart hadds hlate hcatalog h
  | .made _, ⟨changed, hchanged⟩ => exact ⟨changed, (hsource changed).mpr hchanged⟩
  | .probed built, h =>
    intro changed hchanged hlt hbefore
    exact isStale_write hwrite hapart hadds hlate hcatalog
      (h changed ((hsource changed).mp hchanged) hlt hbefore)

end

end PatchJob

/-! ## The first pass -/

namespace Pass

/-- What is written at the time `now` is newer than all sources and the catalog. -/
structure Late (files : Files) (catalog : Option Nat) (jobs : List PatchJob) (now : Nat) :
    Prop where
  source : ∀ job ∈ jobs, ∀ changed, files.modified job.source = .ok changed → changed < now
  catalog : ∀ time ∈ catalog, time < now

end Pass

namespace Course

variable {course next : Course}

/-- No source has been written, and what the jobs have found and done so far lasts. -/
structure Settling (files : Files) (catalog : Option Nat) (jobs : List PatchJob)
    (course : Course) : Prop where
  within : course.files.Within files
  remains : ∀ place, course.files.node? place = none → files.node? place = none
  source : ∀ job ∈ jobs, ∀ changed,
    course.files.modified job.source = .ok changed ↔ files.modified job.source = .ok changed
  settles : ∀ entry ∈ course.jobs, entry.1.Settles course.files catalog entry.2

theorem settling_start (files : Files) (jobs : List PatchJob) :
    Settling files catalog jobs (start files jobs) where
  within := .refl files
  remains _ h := h
  source _ _ _ := .rfl
  settles entry hentry := by
    obtain ⟨job, -, rfl⟩ := List.mem_map.mp hentry
    exact trivial

/-- What is new to the files as they are was new to them at the beginning. -/
theorem Settling.addsTo (h : Settling files catalog jobs course) {path other : String}
    (hadds : course.files.AddsTo path other) : files.AddsTo path other := by
  obtain ⟨place, top, hplace, hnone, htop, heq⟩ := hadds
  exact ⟨place, top, Files.locate_within h.within hplace, h.remains place hnone,
    Files.locate_within h.within htop, heq⟩

variable (hapart : ∀ job ∈ jobs, ∀ other ∈ jobs, files.Apart job.artifact other.source)
  (hadds : ∀ job ∈ jobs, ∀ other ∈ jobs, ¬ files.AddsTo job.artifact other.source)
  (hlate : ∀ now, times now → Pass.Late files catalog jobs now)

include hapart hadds hlate

theorem Settling.step (h : Settling files catalog jobs course)
    (hjobs : course.jobs.map Prod.fst = jobs)
    (hstep : Step vendor catalog times course next) : Settling files catalog jobs next := by
  cases hstep with
  | look hphase =>
    obtain ⟨hjob, hothers⟩ := forall_mem_iff.mp h.settles
    exact { h with settles := forall_mem_iff.mpr ⟨PatchJob.settles_look hphase hjob, hothers⟩ }
  | @write new front rest job text now hnow =>
    obtain ⟨hbefore, hcatalog⟩ := hlate now hnow
    have hmem : ∀ entry ∈ front ++ (job, .made text) :: rest, entry.1 ∈ jobs :=
      fun entry hentry => hjobs ▸ List.mem_map_of_mem hentry
    obtain ⟨hjob, hmem⟩ := forall_mem_iff.mp hmem
    obtain ⟨⟨changed, hchanged⟩, hothers⟩ := forall_mem_iff.mp h.settles
    rcases PatchJob.finish_write_cases new now job text with
      ⟨fault, hfinish⟩ | ⟨written, hwrite, hfinish⟩ <;> rw [hfinish]
    · exact { h with settles := forall_mem_iff.mpr ⟨trivial, hothers⟩ }
    · have hapart' : ∀ other ∈ jobs, new.Apart job.artifact other.source := fun other hother =>
        (hapart job hjob other hother).within h.within
      have hadds' : ∀ other ∈ jobs, ¬ new.AddsTo job.artifact other.source :=
        fun other hother hnew => hadds job hjob other hother (h.addsTo hnew)
      have hbefore' : ∀ other ∈ jobs, ∀ changed, new.modified other.source = .ok changed →
          changed < now := fun other hother changed hchanged =>
        hbefore other hother changed ((h.source other hother changed).mp hchanged)
      refine ⟨(Files.write_within hwrite).trans h.within, fun place hnone => ?_,
        fun other hother time => ?_, forall_mem_iff.mpr ⟨?_, fun entry hentry => ?_⟩⟩
      · obtain ⟨target, -, -, rfl⟩ := Files.write_eq_ok.mp hwrite
        exact h.remains place (Files.node?_eq_none_of_putFile hnone)
      · rw [PatchJob.modified_source_write hwrite (hapart' other hother) (hadds' other hother),
          h.source other hother]
      · exact PatchJob.isStale_write_artifact hwrite (hapart' job hjob) (hadds' job hjob) hchanged
          (hbefore' job hjob changed hchanged) hcatalog
      · exact PatchJob.settles_write hwrite (hapart' _ (hmem entry hentry))
          (hadds' _ (hmem entry hentry)) (hbefore' _ (hmem entry hentry)) hcatalog
          (hothers entry hentry)

theorem settling_of_reaches (h : Reaches vendor catalog times (start files jobs) course) :
    Settling files catalog jobs course := by
  induction h with
  | refl => exact settling_start files jobs
  | tail hreaches hstep ih =>
    exact ih.step hapart hadds hlate (map_fst_of_reaches hreaches) hstep

end Course

/-! ## The second pass -/

namespace Pass

open Course

variable {pass : Pass} {report : PatchReport} {course : Course}

theorem exists_ok_of_outcome (h : pass.outcome = .ok report) :
    ∀ r ∈ pass.results, ∃ outcome, r.result = .ok outcome := by
  rw [← outcome_eq_ok]
  unfold outcome at h ⊢
  split_ifs at h ⊢
  rfl

/-- After a pass that has succeeded, no artifact is stale. -/
theorem isStale_of_outcome
    (hapart : ∀ job ∈ jobs, ∀ other ∈ jobs, files.Apart job.artifact other.source)
    (hadds : ∀ job ∈ jobs, ∀ other ∈ jobs, ¬ files.AddsTo job.artifact other.source)
    (hlate : ∀ now, times now → Late files catalog jobs now)
    (hpass : pass.Interleaves files vendor catalog times jobs) (hok : pass.outcome = .ok report) :
    ∀ job ∈ jobs, job.isStale pass.files catalog = false := by
  have hsettling := settling_of_reaches hapart hadds hlate hpass
  intro job hjob
  rw [← map_fst_of_reaches hpass, Pass.course, List.map_map] at hjob
  obtain ⟨r, hr, rfl⟩ := List.mem_map.mp hjob
  obtain ⟨outcome, hresult⟩ := exists_ok_of_outcome hok r hr
  have hsettles := hsettling.settles _ (List.mem_map_of_mem hr)
  rw [hresult] at hsettles
  exact hsettles

/-- A pass over the files has nothing to do, in whichever order its jobs go on. -/
structure Idle (files : Files) (vendor : String) (catalog : Option Nat) (jobs : List PatchJob) :
    Prop where
  /-- At each step the files are as they were, and no job is about to read its source. -/
  quiet : ∀ {times course}, Reaches vendor catalog times (.start files jobs) course →
    course.files = files ∧ ∀ job, (job, .stale) ∉ course.jobs
  /-- The jobs come to an end. -/
  ends : ∀ {times now course}, times now → Reaches vendor catalog times (.start files jobs) course →
    ∃ pass : Pass, Reaches vendor catalog times course pass.course
  /-- The pass succeeds. Every artifact is up to date, in the order of the jobs. -/
  outcome : ∀ {times pass}, Interleaves files vendor catalog times jobs pass →
    pass.outcome = .ok ⟨[], jobs.map (·.artifact)⟩ ∧ pass.files = files
  /-- This is so if all jobs look before the first one writes. -/
  run : ∀ now, (run files vendor catalog now jobs).outcome = .ok ⟨[], jobs.map (·.artifact)⟩ ∧
    (Pass.run files vendor catalog now jobs).files = files

theorem outcome_of_upToDate (h : pass.results = jobs.map fun job => ⟨job, .ok .upToDate⟩) :
    pass.outcome = .ok ⟨[], jobs.map (·.artifact)⟩ := by
  have hfailures : pass.failures = [] := by
    simp [failures, h, List.filterMap_map, JobResult.failure?, Function.comp_def]
  have hreport : pass.report = ⟨[], jobs.map (·.artifact)⟩ := by
    simp [report, h, List.filterMap_map, JobResult.artifact?, Function.comp_def]
  rw [Pass.outcome, hfailures, hreport]
  rfl

/-- If no artifact is stale, the jobs see the files as they are, and write nothing. -/
theorem onTrack_of_not_stale (h : ∀ job ∈ jobs, job.isStale files catalog = false)
    (hreaches : Reaches vendor catalog times (start files jobs) course) :
    course.files = files ∧ ∀ entry ∈ course.jobs, entry.1.OnTrack files vendor catalog entry.2 := by
  induction hreaches with
  | refl =>
    refine ⟨rfl, fun entry hentry => ?_⟩
    obtain ⟨job, -, rfl⟩ := List.mem_map.mp hentry
    exact trivial
  | tail hreaches hstep ih =>
    have hjobs := map_fst_of_reaches hreaches
    obtain ⟨hfiles, honTrack⟩ := ih
    cases hstep with
    | look hphase =>
      obtain rfl := hfiles
      obtain ⟨hjob, hothers⟩ := forall_mem_iff.mp honTrack
      exact ⟨rfl, forall_mem_iff.mpr ⟨PatchJob.onTrack_look hjob, hothers⟩⟩
    | @write new front rest job text now hnow =>
      have hmem : (job, Phase.made text) ∈ front ++ (job, .made text) :: rest := by simp
      have hstale := PatchJob.isStale_of_plan_eq_write (honTrack _ hmem)
      have hjob : job ∈ jobs := hjobs ▸ List.mem_map_of_mem hmem
      rw [h job hjob] at hstale
      cases hstale

/-- **A pass over artifacts that are not stale has nothing to do.** -/
theorem idle_of_not_stale (h : ∀ job ∈ jobs, job.isStale files catalog = false) (vendor : String) :
    Idle files vendor catalog jobs := by
  have houtcome : ∀ {times pass}, Interleaves files vendor catalog times jobs pass →
      pass.outcome = .ok ⟨[], jobs.map (·.artifact)⟩ ∧ pass.files = files := by
    intro times pass hpass
    obtain ⟨hfiles, honTrack⟩ := onTrack_of_not_stale h hpass
    have hresults := results_eq_of_onTrack honTrack (map_fst_of_reaches hpass) 0
    refine ⟨outcome_of_upToDate (hresults.trans (List.map_congr_left fun job hjob => ?_)), hfiles⟩
    simp [PatchJob.run, PatchJob.plan, PatchJob.finish, h job hjob]
  refine ⟨fun hreaches => ?_, fun hnow _ => exists_pass hnow _, houtcome, fun now => ?_⟩
  · obtain ⟨hfiles, honTrack⟩ := onTrack_of_not_stale h hreaches
    refine ⟨hfiles, fun job hmem => ?_⟩
    have hstale : job.isStale files catalog = true := honTrack _ hmem
    rw [h job (map_fst_of_reaches hreaches ▸ List.mem_map_of_mem hmem)] at hstale
    cases hstale
  · have hpass :
        Interleaves files vendor catalog (· = now) jobs (Pass.run files vendor catalog now jobs) :=
      interleaves_run files vendor catalog jobs rfl
    exact houtcome hpass

end Pass

namespace PackageMap

/-- **A second pass does nothing**, if the first one has added nothing to a source. -/
theorem secondPassIdle {packages : PackageMap} {root directory marker : String} {first : Pass}
    {report : PatchReport}
    (hapart : ∀ job ∈ packages.jobs root directory marker,
      ∀ other ∈ packages.jobs root directory marker, files.Apart job.artifact other.source)
    (hadds : ∀ job ∈ packages.jobs root directory marker,
      ∀ other ∈ packages.jobs root directory marker, ¬ files.AddsTo job.artifact other.source)
    (hlate : ∀ now, times now → Pass.Late files catalog (packages.jobs root directory marker) now)
    (hfirst :
      first.Interleaves files vendor catalog times (packages.jobs root directory marker))
    (hok : first.outcome = .ok report) :
    Pass.Idle first.files vendor catalog (packages.jobs root directory marker) :=
  Pass.idle_of_not_stale (Pass.isStale_of_outcome hapart hadds hlate hfirst hok) vendor

/-- Two packages with a patched file each. -/
def pairOfPackages : PackageMap :=
  .ofList [("a", ⟨"1.0.0", ["x.js"], some ⟨[("x.js", .transforms [.append "!"])]⟩⟩),
    ("b", ⟨"1.0.0", ["y.js", "z.js"], some ⟨[("y.js", .transforms [])]⟩⟩)]

/-- The artifact of the one is older than its source, and that of the other is newer. -/
def pairOfFiles : Files where
  nodes := [
    ("/lib", .directory 1),
    ("/lib/a", .directory 1),
    ("/lib/a/x.es6.js", .file (Text.encode "old") 3),
    ("/lib/a/x.js", .file (Text.encode "x") 4),
    ("/lib/b", .directory 1),
    ("/lib/b/y.es6.js", .file (Text.encode "y") 3),
    ("/lib/b/y.js", .file (Text.encode "y") 1)]
  current := []

/-- The first pass rebuilds one of two artifacts, and the second one neither. -/
theorem secondPassIdle_pair :
    (∀ job ∈ pairOfPackages.jobs "/" "lib" "es6", ∀ other ∈ pairOfPackages.jobs "/" "lib" "es6",
      pairOfFiles.Apart job.artifact other.source) ∧
    (∀ job ∈ pairOfPackages.jobs "/" "lib" "es6", ∀ other ∈ pairOfPackages.jobs "/" "lib" "es6",
      ¬ pairOfFiles.AddsTo job.artifact other.source) ∧
    Pass.Late pairOfFiles (some 2) (pairOfPackages.jobs "/" "lib" "es6") 5 ∧
    (Pass.run pairOfFiles "" (some 2) 5 (pairOfPackages.jobs "/" "lib" "es6")).outcome =
      .ok ⟨["/lib/a/x.es6.js"], ["/lib/b/y.es6.js"]⟩ ∧
    Pass.Idle (Pass.run pairOfFiles "" (some 2) 5 (pairOfPackages.jobs "/" "lib" "es6")).files ""
      (some 2) (pairOfPackages.jobs "/" "lib" "es6") := by
  have hapart : ∀ job ∈ pairOfPackages.jobs "/" "lib" "es6",
      ∀ other ∈ pairOfPackages.jobs "/" "lib" "es6",
        pairOfFiles.Apart job.artifact other.source := by
    decide +kernel
  have hadds : ∀ job ∈ pairOfPackages.jobs "/" "lib" "es6",
      ∀ other ∈ pairOfPackages.jobs "/" "lib" "es6",
        ¬ pairOfFiles.AddsTo job.artifact other.source := by
    decide +kernel
  have hsources : ∀ job ∈ pairOfPackages.jobs "/" "lib" "es6",
      ∀ changed ∈ (pairOfFiles.modified job.source).toOption, changed < 5 := by
    decide +kernel
  have hlate : Pass.Late pairOfFiles (some 2) (pairOfPackages.jobs "/" "lib" "es6") 5 := by
    refine ⟨fun job hjob changed hchanged => hsources job hjob changed ?_, by decide⟩
    rw [hchanged]
    rfl
  have hok : (Pass.run pairOfFiles "" (some 2) 5 (pairOfPackages.jobs "/" "lib" "es6")).outcome =
      .ok ⟨["/lib/a/x.es6.js"], ["/lib/b/y.es6.js"]⟩ := by
    decide +kernel
  have hfirst : Pass.Interleaves pairOfFiles "" (some 2) (· = 5)
      (pairOfPackages.jobs "/" "lib" "es6")
      (Pass.run pairOfFiles "" (some 2) 5 (pairOfPackages.jobs "/" "lib" "es6")) :=
    Pass.interleaves_run pairOfFiles "" (some 2) _ rfl
  have hall : ∀ now, now = 5 →
      Pass.Late pairOfFiles (some 2) (pairOfPackages.jobs "/" "lib" "es6") now := by
    rintro now rfl
    exact hlate
  exact ⟨hapart, hadds, hlate, hok, secondPassIdle hapart hadds hall hfirst hok⟩

/-- **A second pass may fail**, where the first one has put an artifact into a directory that
another job takes for its source. -/
theorem not_always_secondPassIdle :
    ¬ ∀ (packages : PackageMap) (root directory marker : String) (files : Files) (vendor : String)
        (catalog : Option Nat) (times : Nat → Prop) (first : Pass) (report : PatchReport),
      (∀ job ∈ packages.jobs root directory marker,
        ∀ other ∈ packages.jobs root directory marker, files.Apart job.artifact other.source) →
      (∀ now, times now →
        Pass.Late files catalog (packages.jobs root directory marker) now) →
      first.Interleaves files vendor catalog times (packages.jobs root directory marker) →
      first.outcome = .ok report →
      Pass.Idle first.files vendor catalog (packages.jobs root directory marker) := by
  intro h
  have hapart : ∀ job ∈ Pass.nesting.jobs "/p" "lib" "es6",
      ∀ other ∈ Pass.nesting.jobs "/p" "lib" "es6",
        Pass.nestingFiles.Apart job.artifact other.source := by
    decide +kernel
  have hsources : ∀ job ∈ Pass.nesting.jobs "/p" "lib" "es6",
      ∀ changed ∈ (Pass.nestingFiles.modified job.source).toOption, changed < 3 := by
    decide +kernel
  have hlate : ∀ now, now = 3 →
      Pass.Late Pass.nestingFiles none (Pass.nesting.jobs "/p" "lib" "es6") now := by
    rintro now rfl
    refine ⟨fun job hjob changed hchanged => hsources job hjob changed ?_, by simp⟩
    rw [hchanged]
    rfl
  have hok : (Pass.run Pass.nestingFiles "" none 3 (Pass.nesting.jobs "/p" "lib" "es6")).outcome =
      .ok ⟨["/p/lib/a/d/x.es6.js"], ["/p/lib/a/d.es6"]⟩ := by
    decide +kernel
  have hfirst : Pass.Interleaves Pass.nestingFiles "" none (· = 3)
      (Pass.nesting.jobs "/p" "lib" "es6")
      (Pass.run Pass.nestingFiles "" none 3 (Pass.nesting.jobs "/p" "lib" "es6")) :=
    Pass.interleaves_run Pass.nestingFiles "" none _ rfl
  have hidle := h Pass.nesting "/p" "lib" "es6" Pass.nestingFiles "" none (· = 3) _ _ hapart hlate
    hfirst hok
  exact absurd (hidle.run 3).1 (by decide +kernel)

end PackageMap

end Retrofit

import Retrofit.Proofs.Patch.Interleaving

/-!
# What jobs leave that run at the same time

**The frame.** Whatever the order of the steps is, the directories stay, and a file changes only
where a job has rebuilt its artifact (`Course.Framed`).

**A job alone.** Let no other job have its artifact where a job has its own, and no job where it has
its source (`PatchJob.IsAlone`). Then the others do not matter: the job rebuilds its artifact if
that was stale at the beginning, with the text that it would make then (`Pass.makes_of_stale`), and
else leaves it as it was (`Pass.get_of_fresh`). The invariant (`PatchJob.Follows`) says of each
phase what the job has found out about the files from the beginning.
-/

namespace Retrofit

open Relation

variable {files start new : Files} {vendor : String} {catalog : Option Nat} {now : Nat}
  {times : Nat → Prop} {job other : PatchJob} {jobs : List PatchJob} {phase phase' : Phase}

namespace Course

variable {course next : Course} {front rest : List (PatchJob × Phase)}

theorem mem_iff_of_ne (h : phase ≠ phase') :
    (other, phase') ∈ front ++ (job, phase) :: rest ↔ (other, phase') ∈ front ++ rest := by
  simp [Ne.symm h]

theorem mem_iff_of_eq :
    (other, phase) ∈ front ++ (job, phase) :: rest ↔
      other = job ∨ (other, phase) ∈ front ++ rest := by
  simp [or_left_comm]

theorem ne_rebuilt_of_remaining (h : 0 < phase.remaining) : phase ≠ .ended (.ok .rebuilt) := by
  rintro rfl
  simp [Phase.remaining] at h

/-! ## The frame -/

/-- The directories stay, and so do files where no job has rebuilt its artifact. -/
structure Framed (files : Files) (course : Course) : Prop where
  within : course.files.Within files
  directories : files.Within course.files
  kept : ∀ path, (∀ job, (job, .ended (.ok .rebuilt)) ∈ course.jobs →
      files.Apart path job.artifact) →
    ∀ content time, course.files.get path = .ok (.file content time) ↔
      files.get path = .ok (.file content time)

theorem framed_start (files : Files) (jobs : List PatchJob) : Framed files (.start files jobs) where
  within := .refl files
  directories := .refl files
  kept _ _ _ _ := .rfl

theorem Framed.step (h : Framed files course) (hstep : Step vendor catalog times course next) :
    Framed files next := by
  obtain ⟨hwithin, hdirectories, hkept⟩ := h
  cases hstep with
  | look hphase =>
    refine ⟨hwithin, hdirectories, fun path hpath => hkept path fun other hother => hpath other ?_⟩
    rw [mem_iff_of_ne (ne_rebuilt_of_remaining (Nat.lt_of_succ_lt hphase))] at hother
    exact (mem_iff_of_ne (PatchJob.look_ne_rebuilt hphase)).mpr hother
  | @write new front rest job text now hnow =>
    have hmade : Phase.made text ≠ .ended (.ok .rebuilt) := ne_rebuilt_of_remaining Nat.zero_lt_one
    rcases PatchJob.finish_write_cases new now job text with
      ⟨fault, hfinish⟩ | ⟨written, hwrite, hfinish⟩ <;> rw [hfinish]
    · refine ⟨hwithin, hdirectories, fun path hpath => hkept path fun other hother =>
        hpath other ?_⟩
      rw [mem_iff_of_ne hmade] at hother
      exact (mem_iff_of_ne (by simp)).mpr hother
    · refine ⟨(Files.write_within hwrite).trans hwithin,
        hdirectories.trans (Files.within_write hwrite), fun path hpath content time => ?_⟩
      have hapart : files.Apart path job.artifact := hpath job (mem_iff_of_eq.mpr (.inl rfl))
      rw [Files.get_file_write_other hwrite (hapart.within hwithin)]
      refine hkept path (fun other hother => hpath other ?_) content time
      exact mem_iff_of_eq.mpr (.inr ((mem_iff_of_ne hmade).mp hother))

theorem framed_of_reaches (h : Reaches vendor catalog times (.start files jobs) course) :
    Framed files course := by
  induction h with
  | refl => exact framed_start files jobs
  | tail _ hstep ih => exact ih.step hstep

end Course

/-! ## A job alone -/

namespace PatchJob

/-- Wherever the job stands in the list, no job in front of it or behind it has its artifact at the
same place, and no job has it at the place of the source. -/
structure IsAlone (files : Files) (jobs : List PatchJob) (job : PatchJob) : Prop where
  artifact : ∀ front rest, jobs = front ++ job :: rest →
    ∀ other ∈ front ++ rest, files.Apart job.artifact other.artifact
  source : ∀ other ∈ jobs, files.Apart job.source other.artifact

/-- Jobs are alone if their artifacts are at different places, and none where a source is. -/
theorem isAlone_of_pairwise
    (h : jobs.Pairwise fun job other => files.Apart job.artifact other.artifact)
    (hsource : ∀ other ∈ jobs, files.Apart job.source other.artifact) :
    job.IsAlone files jobs := by
  refine ⟨?_, hsource⟩
  rintro front rest rfl other hother
  obtain ⟨-, hrest, hfront⟩ := List.pairwise_append.mp h
  rcases List.mem_append.mp hother with hother | hother
  · exact (hfront other hother job (List.mem_cons_self ..)).symm
  · exact (List.pairwise_cons.mp hrest).1 other hother

theorem IsAlone.within (h : job.IsAlone files jobs) (hwithin : new.Within files) :
    job.IsAlone new jobs where
  artifact front rest hjobs other hother :=
    (h.artifact front rest hjobs other hother).within hwithin
  source other hother := (h.source other hother).within hwithin

section

variable {front rest : List (PatchJob × Phase)}

theorem IsAlone.apart_of_others
    (h : job.IsAlone files ((front ++ (job, phase) :: rest).map Prod.fst)) :
    ∀ entry ∈ front ++ rest, files.Apart job.artifact entry.1.artifact := by
  intro entry hentry
  rw [List.map_append, List.map_cons] at h
  refine h.artifact _ _ rfl entry.1 ?_
  rw [← List.map_append]
  exact List.mem_map_of_mem hentry

theorem IsAlone.apart_of_mem
    (h : job.IsAlone files ((front ++ (other, phase') :: rest).map Prod.fst))
    (hmem : (job, phase) ∈ front ++ rest) : files.Apart job.artifact other.artifact := by
  rcases List.mem_append.mp hmem with hmem | hmem
  · obtain ⟨before, behind, rfl⟩ := List.append_of_mem hmem
    exact h.artifact (before.map Prod.fst) ((behind ++ (other, phase') :: rest).map Prod.fst)
      (by simp) other (by simp)
  · obtain ⟨before, behind, rfl⟩ := List.append_of_mem hmem
    exact h.artifact ((front ++ (other, phase') :: before).map Prod.fst) (behind.map Prod.fst)
      (by simp) other (by simp)

end

theorem IsAlone.apart_of_ne (h : job.IsAlone files jobs) (hjob : job ∈ jobs) (hother : other ∈ jobs)
    (hne : other ≠ job) : files.Apart job.artifact other.artifact := by
  obtain ⟨front, rest, rfl⟩ := List.append_of_mem hjob
  refine h.artifact front rest rfl other ?_
  simpa [hne] using hother

/-- What a job that is alone has found out about the files from the beginning, and what it has left
by now. -/
def Follows (start : Files) (vendor : String) (catalog : Option Nat) (files : Files)
    (job : PatchJob) : Phase → Prop
  | .begun => True
  | .probed built => start.modified job.artifact = .ok built
  | .stale => job.isStale start catalog = true
  | .made text => job.plan start vendor catalog = .write text
  | .ended (.ok .upToDate) => job.isStale start catalog = false
  | .ended (.ok .rebuilt) => ∃ text now, job.plan start vendor catalog = .write text ∧
      files.get job.artifact = .ok (.file (Text.encode text) now)
  | .ended (.error _) => True

theorem follows_ofPlan (start : Files) (vendor : String) (catalog : Option Nat) (files : Files)
    (job : PatchJob) :
    job.Follows start vendor catalog files (.ofPlan (job.plan start vendor catalog)) := by
  cases hplan : job.plan start vendor catalog with
  | write text => exact hplan
  | fail error => exact trivial
  | keep =>
    cases hstale : job.isStale start catalog with
    | false => exact hstale
    | true =>
      have hlook : job.look start vendor catalog .stale = .ofPlan (job.plan start vendor catalog) :=
        look_stale hstale
      rw [hplan] at hlook
      have hfinds : job.Finds start catalog .stale (job.look start vendor catalog .stale) :=
        finds_look (by decide)
      rw [hlook] at hfinds
      cases hfinds

/-- A job whose artifact and source are as they were at the beginning finds out about the files from
then. The time of a directory may have changed, so the time of the source must not be asked for if
it is one. -/
theorem follows_look (hphase : 1 < phase.remaining)
    (hartifact : ∀ time, files.modified job.artifact = .ok time ↔
      start.modified job.artifact = .ok time)
    (hread : ∀ bytes, files.read job.source = .ok bytes ↔ start.read job.source = .ok bytes)
    (hsource : ∀ built, start.modified job.artifact = .ok built → ∀ time,
      files.modified job.source = .ok time ↔ start.modified job.source = .ok time)
    (h : job.Follows start vendor catalog new phase) :
    job.Follows start vendor catalog new (job.look files vendor catalog phase) := by
  cases phase with
  | made text => simp [Phase.remaining] at hphase
  | ended result => simp [Phase.remaining] at hphase
  | begun =>
    cases hbuilt : files.modified job.artifact with
    | ok built => simpa [look, hbuilt, Follows] using (hartifact built).mp hbuilt
    | error fault =>
      have hnone : ∀ time, start.modified job.artifact ≠ .ok time := fun time htime => by
        simp [(hartifact time).mpr htime] at hbuilt
      have hstale : job.isStale start catalog = true := by
        rw [← Bool.not_eq_false, isStale_eq_false_iff]
        rintro ⟨built, -, htime, -⟩
        exact hnone built htime
      simpa [look, hbuilt, Follows] using hstale
  | probed built =>
    rw [look_probed ((hartifact built).mpr h), isStale_congr hartifact (hsource built h)]
    cases hstale : job.isStale start catalog with
    | true => exact hstale
    | false => exact hstale
  | stale =>
    cases hbytes : files.read job.source with
    | error fault => simp [look, hbytes, Follows]
    | ok bytes =>
      have hlook : job.look files vendor catalog .stale = job.look start vendor catalog .stale := by
        rw [look, look, hbytes, (hread bytes).mp hbytes]
      rw [hlook, look_stale h]
      exact follows_ofPlan ..

/-- What a job that is alone has done stays, since no other job writes its artifact. -/
theorem Follows.congr (h : job.Follows start vendor catalog files phase)
    (hkept : ∀ content time, files.get job.artifact = .ok (.file content time) →
      new.get job.artifact = .ok (.file content time)) :
    job.Follows start vendor catalog new phase := by
  match phase, h with
  | .begun, h => exact h
  | .probed _, h => exact h
  | .stale, h => exact h
  | .made _, h => exact h
  | .ended (.ok .upToDate), h => exact h
  | .ended (.error _), h => exact h
  | .ended (.ok .rebuilt), ⟨text, now, hplan, hget⟩ => exact ⟨text, now, hplan, hkept _ _ hget⟩

end PatchJob

namespace Course

open PatchJob

variable {course next : Course} {front rest : List (PatchJob × Phase)} {path : String}

/-- Where no directory stands, the time is that of a file. -/
theorem Framed.modified_iff (h : Framed files course)
    (hdir : ∀ modified, files.get path ≠ .ok (.directory modified))
    (hkept : ∀ content time, course.files.get path = .ok (.file content time) ↔
      files.get path = .ok (.file content time)) (time : Nat) :
    course.files.modified path = .ok time ↔ files.modified path = .ok time := by
  have hdir' : ∀ modified, course.files.get path ≠ .ok (.directory modified) := by
    intro modified hget
    obtain ⟨modified', hget'⟩ := Files.exists_directory_within h.within hget
    exact hdir modified' hget'
  rw [Files.modified_eq_ok, Files.modified_eq_ok]
  constructor
  · rintro ⟨node, hget, rfl⟩
    cases node with
    | directory modified => exact absurd hget (hdir' modified)
    | file content time => exact ⟨_, (hkept content time).mp hget, rfl⟩
  · rintro ⟨node, hget, rfl⟩
    cases node with
    | directory modified => exact absurd hget (hdir modified)
    | file content time => exact ⟨_, (hkept content time).mpr hget, rfl⟩

section

-- The time of the source must not be asked for if it is a directory.
variable (hdir : ∀ modified, files.get job.artifact ≠ .ok (.directory modified))
  (hsource : (∀ node, files.get job.artifact ≠ .ok node) ∨
    ∀ modified, files.get job.source ≠ .ok (.directory modified))

include hdir hsource

/-- Whenever a job looks that is alone, it finds out about the files from the beginning. -/
theorem Framed.follows_look (h : Framed files ⟨new, front ++ (job, phase) :: rest⟩)
    (halone : job.IsAlone files ((front ++ (job, phase) :: rest).map Prod.fst))
    (hphase : 1 < phase.remaining) (hfollows : job.Follows files vendor catalog new phase) :
    job.Follows files vendor catalog new (job.look new vendor catalog phase) := by
  have hne := ne_rebuilt_of_remaining (Nat.lt_of_succ_lt hphase)
  have hartifact := h.kept job.artifact fun other hother =>
    halone.apart_of_others _ ((mem_iff_of_ne hne).mp hother)
  have hkept := h.kept job.source fun other hother =>
    halone.source other (List.mem_map_of_mem hother)
  have hread : ∀ bytes, new.read job.source = .ok bytes ↔ files.read job.source = .ok bytes := by
    intro bytes
    rw [Files.read_eq_ok, Files.read_eq_ok]
    exact exists_congr fun time => hkept bytes time
  refine PatchJob.follows_look hphase (h.modified_iff hdir hartifact) hread ?_ hfollows
  intro built hbuilt
  obtain ⟨node, hget, -⟩ := Files.modified_eq_ok.mp hbuilt
  exact h.modified_iff (hsource.resolve_left fun hnone => hnone node hget) hkept

/-- A job that is alone does what it would do on the files from the beginning. -/
theorem follows_step (halone : job.IsAlone files (course.jobs.map Prod.fst))
    (hframed : Framed files course)
    (h : ∀ entry ∈ course.jobs, entry.1 = job →
      job.Follows files vendor catalog course.files entry.2)
    (hstep : Step vendor catalog times course next) :
    ∀ entry ∈ next.jobs, entry.1 = job → job.Follows files vendor catalog next.files entry.2 := by
  cases hstep with
  | look hphase =>
    obtain ⟨hacting, hothers⟩ := forall_mem_iff.mp h
    refine forall_mem_iff.mpr ⟨?_, hothers⟩
    rintro rfl
    exact hframed.follows_look hdir hsource halone hphase (hacting rfl)
  | @write new front rest acting text now hnow =>
    obtain ⟨hacting, hothers⟩ := forall_mem_iff.mp h
    rcases finish_write_cases new now acting text with
      ⟨fault, hfinish⟩ | ⟨written, hwrite, hfinish⟩ <;> rw [hfinish]
    · exact forall_mem_iff.mpr ⟨fun _ => trivial, hothers⟩
    · refine forall_mem_iff.mpr ⟨?_, ?_⟩
      · rintro rfl
        exact ⟨text, now, hacting rfl, Files.get_write_self hwrite⟩
      · rintro ⟨_, phase⟩ hmem rfl
        have hapart := (halone.apart_of_mem hmem).within hframed.within
        exact (hothers _ hmem rfl).congr fun content time =>
          (Files.get_file_write_other hwrite hapart).mpr

theorem follows_of_reaches (halone : job.IsAlone files jobs)
    (h : Reaches vendor catalog times (.start files jobs) course) :
    ∀ entry ∈ course.jobs, entry.1 = job →
      job.Follows files vendor catalog course.files entry.2 := by
  induction h with
  | refl =>
    intro entry hentry _
    obtain ⟨other, -, rfl⟩ := List.mem_map.mp hentry
    exact trivial
  | tail hreaches hstep ih =>
    rw [← map_fst_of_reaches hreaches] at halone
    exact follows_step hdir hsource halone (framed_of_reaches hreaches) ih hstep

end

end Course

namespace Pass

open Course

variable {pass : Pass}

section

variable (hdir : ∀ modified, files.get job.artifact ≠ .ok (.directory modified))
  (hsource : (∀ node, files.get job.artifact ≠ .ok node) ∨
    ∀ modified, files.get job.source ≠ .ok (.directory modified))

include hdir hsource

/-- What a job that is alone and does not fail has done. -/
theorem follows_of_completes (halone : job.IsAlone files jobs) (hjob : job ∈ jobs)
    (hpass : pass.Interleaves files vendor catalog times jobs) (hcompletes : pass.Completes job) :
    ∃ outcome, (job, .ended (.ok outcome)) ∈ pass.course.jobs ∧
      job.Follows files vendor catalog pass.files (.ended (.ok outcome)) := by
  rw [← map_fst_of_reaches hpass, Pass.course, List.map_map] at hjob
  obtain ⟨r, hr, rfl⟩ := List.mem_map.mp hjob
  obtain ⟨outcome, hresult⟩ := hcompletes r hr rfl
  have hmem : (r.job, Phase.ended (.ok outcome)) ∈ pass.course.jobs :=
    hresult ▸ List.mem_map_of_mem hr
  exact ⟨outcome, hmem, follows_of_reaches hdir hsource halone hpass _ hmem rfl⟩

/-- **A stale artifact is made again**, if its job is alone and does not fail. -/
theorem makes_of_stale (halone : job.IsAlone files jobs) (hjob : job ∈ jobs)
    (hpass : pass.Interleaves files vendor catalog times jobs) (hcompletes : pass.Completes job)
    (hstale : job.isStale files catalog = true) :
    ∃ text, job.Makes vendor files (Text.encode text) ∧
      pass.files.readText job.artifact = .ok text := by
  obtain ⟨outcome, -, hfollows⟩ :=
    follows_of_completes hdir hsource halone hjob hpass hcompletes
  cases outcome with
  | upToDate =>
    rw [PatchJob.Follows, hstale] at hfollows
    cases hfollows
  | rebuilt =>
    obtain ⟨text, now, hplan, hget⟩ := hfollows
    exact ⟨text, PatchJob.makes_of_plan_eq_write hplan, Files.readText_of_get hget⟩

end

/-- **An artifact that is up to date is kept**, if its job is alone. -/
theorem get_of_fresh (halone : job.IsAlone files jobs)
    (hdir : ∀ modified, files.get job.artifact ≠ .ok (.directory modified))
    (hsource : ∀ modified, files.get job.source ≠ .ok (.directory modified))
    (hpass : pass.Interleaves files vendor catalog times jobs) (hjob : job ∈ jobs)
    (hfresh : job.isStale files catalog = false) (content : List UInt8) (time : Nat) :
    pass.files.get job.artifact = .ok (.file content time) ↔
      files.get job.artifact = .ok (.file content time) := by
  refine (framed_of_reaches hpass).kept job.artifact (fun other hother => ?_) content time
  have hmem : other ∈ jobs := map_fst_of_reaches hpass ▸ List.mem_map_of_mem hother
  refine halone.apart_of_ne hjob hmem ?_
  rintro rfl
  obtain ⟨text, now, hplan, -⟩ := follows_of_reaches hdir (.inr hsource) halone hpass _ hother rfl
  rw [PatchJob.isStale_of_plan_eq_write hplan] at hfresh
  cases hfresh

end Pass

end Retrofit

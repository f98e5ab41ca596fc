import Retrofit.Proofs.Files.Waypoints
import Retrofit.Proofs.Patch.Course

/-!
# The order of the jobs does not matter

**Theorem (`Pass.orderFree`).** Let no job write at a place that a path of another job comes to, or
add an entry to a directory that another job takes for a file. Then every interleaving of the jobs
gives each job the outcome that it has if the jobs run one after the other, be it an error, and
leaves the same contents in all files. In particular, this is so if all paths lead down by names
from one directory, no artifact is, as a path or as the beginning of one, on a path of another job,
and none stands right below the source of another job.

The invariant (`Course.Sound`) is that a job has seen the files as they were at the beginning, that
what a job has rebuilt holds what the job alone would have written, and that all else is as it was,
but for the times of directories that have got a new entry. A job that goes on finds nothing changed
on its paths, since only other jobs have written anything so far.

The texts of the paths do not tell enough if `..` stands in them. Two jobs of one package can have
one artifact under two paths, and then it matters who comes first. Nor is it enough if they all lead
down by names. A source that is a directory cannot be read, but it has a time, and an artifact that
comes into it changes that time (`Pass.not_always_orderFree`).
-/

namespace Retrofit

open Relation Path

variable {files new : Files} {vendor : String} {catalog : Option Nat} {now : Nat}
  {times : Nat → Prop} {job other : PatchJob} {jobs : List PatchJob} {text : String}
  {path key : String} {place : Place} {phase : Phase} {pre : List Segment}

namespace PatchJob

/-! ## Jobs that do not meet -/

/-- What the one job writes is aside from the paths of the other. -/
def LeavesAlone (files : Files) (job other : PatchJob) : Prop :=
  files.Aside job.artifact other.source ∧ files.Aside job.artifact other.artifact

/-- Neither job writes where a path of the other comes to. -/
def Independent (files : Files) (job other : PatchJob) : Prop :=
  LeavesAlone files job other ∧ LeavesAlone files other job

/-- The artifact of the one job is no path of the other one, and no directory on it, as paths are
written. -/
def KeepsOff (job other : PatchJob) : Prop :=
  ∀ path ∈ [other.source, other.artifact],
    ¬ Path.segments job.artifact <+: Path.segments path

/-- Neither artifact is a path of the other job, or a directory on it. -/
def Distinct (job other : PatchJob) : Prop :=
  KeepsOff job other ∧ KeepsOff other job

/-- Neither artifact stands right below the source of the other job, as paths are written. -/
def Outside (job other : PatchJob) : Prop :=
  (Path.segments job.artifact).dropLast ≠ Path.segments other.source ∧
    (Path.segments other.artifact).dropLast ≠ Path.segments job.source

/-- Both paths of the job lead down by names from one directory. -/
def DescendsFrom (pre : List Segment) (job : PatchJob) : Prop :=
  ∀ path ∈ [job.source, job.artifact], ∃ names, names ≠ [] ∧ Path.segments path = pre ++ names ∧
    ∀ name ∈ names, IsOrdinary name

instance : DecidableRel KeepsOff := fun job other =>
  inferInstanceAs (Decidable (∀ path ∈ [other.source, other.artifact],
    ¬ Path.segments job.artifact <+: Path.segments path))

instance : DecidableRel Distinct := fun job other =>
  inferInstanceAs (Decidable (KeepsOff job other ∧ KeepsOff other job))

instance : DecidableRel Outside := fun job other =>
  inferInstanceAs (Decidable ((Path.segments job.artifact).dropLast ≠ Path.segments other.source ∧
    (Path.segments other.artifact).dropLast ≠ Path.segments job.source))

instance : DecidablePred (DescendsFrom pre) := fun job =>
  decidable_of_iff (∀ path ∈ [job.source, job.artifact],
      pre ++ (Path.segments path).drop pre.length = Path.segments path ∧
        (Path.segments path).drop pre.length ≠ [] ∧
        ∀ name ∈ (Path.segments path).drop pre.length, IsOrdinary name) <| by
    refine forall₂_congr fun path _ => ⟨fun ⟨hpath, hne, hord⟩ => ⟨_, hne, hpath.symm, hord⟩, ?_⟩
    rintro ⟨names, hne, hpath, hord⟩
    rw [hpath, List.drop_left]
    exact ⟨rfl, hne, hord⟩

theorem leavesAlone_of_keepsOff (hjob : job.DescendsFrom pre) (hother : other.DescendsFrom pre)
    (h : ∀ path ∈ [other.source, other.artifact], ¬ Path.segments job.artifact <+:
      Path.segments path ∧
      (Path.segments job.artifact).dropLast ≠ Path.segments path) (files : Files) :
    LeavesAlone files job other := by
  have haside : ∀ path ∈ [other.source, other.artifact], files.Aside job.artifact path := by
    intro path hpath
    obtain ⟨hfront, hentry⟩ := h path hpath
    obtain ⟨names, hne, hartifact, hord⟩ := hjob job.artifact (by simp)
    obtain ⟨names', hne', hsegments, hord'⟩ := hother path hpath
    rw [hartifact, hsegments] at hfront hentry
    refine Files.aside_of_segments hartifact hsegments hne hne' hord hord' (fun h => hfront ?_)
      (fun h => hentry ?_)
    · exact (List.prefix_append_right_inj pre).mpr h
    · rw [List.dropLast_append_of_ne_nil hne, h]
  exact ⟨haside _ (by simp), haside _ (by simp)⟩

/-- An artifact right below that of another job would have that on its way. -/
theorem Distinct.dropLast_ne (h : job.Distinct other) :
    (Path.segments job.artifact).dropLast ≠ Path.segments other.artifact := fun heq =>
  h.2 job.artifact (by simp) (heq ▸ List.dropLast_prefix _)

theorem independent_of_distinct (hjob : job.DescendsFrom pre) (hother : other.DescendsFrom pre)
    (h : job.Distinct other) (houtside : job.Outside other) (files : Files) :
    Independent files job other := by
  have hsymm : other.Distinct job := ⟨h.2, h.1⟩
  refine ⟨leavesAlone_of_keepsOff hjob hother (List.forall_mem_cons.mpr ⟨?_, ?_⟩) files,
    leavesAlone_of_keepsOff hother hjob (List.forall_mem_cons.mpr ⟨?_, ?_⟩) files⟩
  · exact ⟨h.1 _ (by simp), houtside.1⟩
  · exact List.forall_mem_singleton.mpr ⟨h.1 _ (by simp), h.dropLast_ne⟩
  · exact ⟨h.2 _ (by simp), houtside.2⟩
  · exact List.forall_mem_singleton.mpr ⟨h.2 _ (by simp), hsymm.dropLast_ne⟩

/-! ## One job on files that are the same along its paths -/

theorem look_congr (hsource : new.SameAlong files job.source)
    (hartifact : new.SameAlong files job.artifact) (phase : Phase) :
    job.look new vendor catalog phase = job.look files vendor catalog phase := by
  cases phase with
  | made text => rfl
  | ended result => rfl
  | begun => rw [look, look, hartifact.modified]
  | probed built => rw [look, look, hsource.modified]
  | stale => rw [look, look, hsource.read]

/-- How a write ends depends on what stands along the path of the artifact, and not on the time. -/
theorem fst_finish_congr (h : new.SameAlong files job.artifact) (now now' : Nat) :
    (job.finish new now (.write text)).1 = (job.finish files now' (.write text)).1 := by
  unfold finish Files.write
  rw [h.locate]
  cases hplace : files.locate job.artifact with
  | error fault => rfl
  | ok place =>
    simp only [ok_bind, h.node place hplace]
    rcases files.node? place with _ | ⟨content, time⟩ | time <;> rfl

/-- The job alone would write the text at the place. -/
structure Writes (files : Files) (vendor : String) (catalog : Option Nat) (job : PatchJob)
    (text : String) (place : Place) : Prop where
  plan : job.plan files vendor catalog = .write text
  locate : files.locate job.artifact = .ok place
  free : ¬ files.IsDirectory place

theorem Writes.unique {text' : String} {place' : Place}
    (h : job.Writes files vendor catalog text place)
    (h' : job.Writes files vendor catalog text' place') : text = text' ∧ place = place' :=
  ⟨Plan.write.inj (h.plan.symm.trans h'.plan), Except.ok.inj (h.locate.symm.trans h'.locate)⟩

/-- Where a job can write its text on files that are the same along the path, it would write it
alone. -/
theorem Writes.of_sameAlong (h : new.SameAlong files job.artifact)
    (hplan : job.plan files vendor catalog = .write text)
    (hplace : new.locate job.artifact = .ok place)
    (hdir : ¬ new.IsDirectory place) : job.Writes files vendor catalog text place := by
  rw [h.locate] at hplace
  refine ⟨hplan, hplace, ?_⟩
  rintro ⟨modified, hnode⟩
  exact hdir ⟨modified, by rw [h.node place hplace, hnode]⟩

end PatchJob

/-! ## Courses -/

namespace Course

variable {course next : Course} {front rest : List (PatchJob × Phase)}

/-- Each job has seen the files as they were at the beginning, and what was rebuilt is all that has
changed, but for the times of the directories that it is new in. -/
structure Sound (files : Files) (vendor : String) (catalog : Option Nat) (course : Course) :
    Prop where
  onTrack : ∀ entry ∈ course.jobs, entry.1.OnTrack files vendor catalog entry.2
  current : course.files.current = files.current
  rebuilt : ∀ job, (job, .ended (.ok .rebuilt)) ∈ course.jobs → ∀ text place,
    job.Writes files vendor catalog text place →
    ∃ now, Dictionary.get? place.path course.files.nodes = some (.file (Text.encode text) now)
  entry : ∀ key, (∀ job text place, (job, .ended (.ok .rebuilt)) ∈ course.jobs →
      job.Writes files vendor catalog text place → place.path ≠ key) →
    Node.SameEntry (Dictionary.get? key course.files.nodes) (Dictionary.get? key files.nodes)
  kept : ∀ place, (∀ job text written, (job, .ended (.ok .rebuilt)) ∈ course.jobs →
      job.Writes files vendor catalog text written → place.path ≠ written.path ∧
        (files.node? written = none → place.path ≠ Place.path written.dropLast)) →
    course.files.node? place = files.node? place

theorem sound_start (files : Files) (jobs : List PatchJob) :
    (start files jobs).Sound files vendor catalog where
  onTrack entry hentry := by
    obtain ⟨job, -, rfl⟩ := List.mem_map.mp hentry
    exact trivial
  current := rfl
  rebuilt job hjob := by
    obtain ⟨other, -, heq⟩ := List.mem_map.mp hjob
    cases (Prod.mk.inj heq).2
  entry key _ := .refl _
  kept place _ := rfl

/-- All other jobs leave a job alone. -/
theorem leavesAlone_of_pairwise
    (h : ((front ++ (job, phase) :: rest).map Prod.fst).Pairwise (PatchJob.Independent files)) :
    ∀ entry ∈ front ++ rest, PatchJob.LeavesAlone files entry.1 job := by
  rw [List.map_append, List.map_cons, List.pairwise_append, List.pairwise_cons] at h
  obtain ⟨-, ⟨hrest, -⟩, hfront⟩ := h
  intro entry hentry
  rcases List.mem_append.mp hentry with hentry | hentry
  · exact (hfront entry.1 (List.mem_map_of_mem hentry) job (List.mem_cons_self ..)).1
  · exact (hrest entry.1 (List.mem_map_of_mem hentry)).2

/-- A job that has not ended finds a path as it was, if all others leave the path alone. -/
theorem Sound.sameAlong (h : Sound files vendor catalog ⟨new, front ++ (job, phase) :: rest⟩)
    (hphase : 0 < phase.remaining)
    (haside : ∀ entry ∈ front ++ rest, files.Aside entry.1.artifact path) :
    new.SameAlong files path := by
  have haside : ∀ other, (other, .ended (.ok .rebuilt)) ∈ front ++ (job, phase) :: rest →
      files.Aside other.artifact path := fun other hother =>
    haside _ ((mem_iff_of_ne (ne_rebuilt_of_remaining hphase)).mp hother)
  refine Files.sameAlong_of_waypoints h.current (fun passed hpassed => ?_) (fun top htop => ?_)
  · refine Files.sameEntry_of_get? (h.entry passed.path fun other text place hmem hwrites => ?_)
    exact ((haside other hmem).passed place hwrites.locate hwrites.free passed hpassed).symm
  · refine h.kept top fun other text place hmem hwrites => ⟨?_, fun hnone heq => ?_⟩
    · exact (haside other hmem).passed place hwrites.locate hwrites.free top
        (Files.mem_waypoints_of_locate htop)
    · exact (haside other hmem).entry ⟨place, top, hwrites.locate, hnone, htop, heq⟩

theorem Sound.look (h : Sound files vendor catalog ⟨new, front ++ (job, phase) :: rest⟩)
    (hphase : 1 < phase.remaining)
    (halone : ∀ entry ∈ front ++ rest, PatchJob.LeavesAlone files entry.1 job) :
    Sound files vendor catalog
      ⟨new, front ++ (job, job.look new vendor catalog phase) :: rest⟩ := by
  have hsource := h.sameAlong (Nat.lt_of_succ_lt hphase) fun entry hentry =>
    (halone entry hentry).1
  have hartifact := h.sameAlong (Nat.lt_of_succ_lt hphase) fun entry hentry =>
    (halone entry hentry).2
  rw [PatchJob.look_congr hsource hartifact]
  have hmem : ∀ other, (other, .ended (.ok .rebuilt)) ∈
      front ++ (job, job.look files vendor catalog phase) :: rest ↔
      (other, .ended (.ok .rebuilt)) ∈ front ++ (job, phase) :: rest := fun other => by
    rw [mem_iff_of_ne (ne_rebuilt_of_remaining (Nat.lt_of_succ_lt hphase)),
      mem_iff_of_ne (PatchJob.look_ne_rebuilt hphase)]
  obtain ⟨honTrack, hcurrent, hrebuilt, hentry, hkept⟩ := h
  obtain ⟨hjob, hothers⟩ := forall_mem_iff.mp honTrack
  refine ⟨forall_mem_iff.mpr ⟨PatchJob.onTrack_look hjob, hothers⟩, hcurrent, ?_, ?_, ?_⟩
  · simpa only [hmem] using hrebuilt
  · simpa only [hmem] using hentry
  · simpa only [hmem] using hkept

/-- What is on track to write a text and fails changes nothing. -/
theorem Sound.of_failed {result : Except PatchError Outcome}
    (h : Sound files vendor catalog ⟨new, front ++ (job, .made text) :: rest⟩)
    (honTrack : ∀ entry ∈ front ++ (job, .ended result) :: rest,
      entry.1.OnTrack files vendor catalog entry.2) (hresult : result ≠ .ok .rebuilt) :
    Sound files vendor catalog ⟨new, front ++ (job, .ended result) :: rest⟩ := by
  have hmem : ∀ other, (other, .ended (.ok .rebuilt)) ∈ front ++ (job, .ended result) :: rest ↔
      (other, .ended (.ok .rebuilt)) ∈ front ++ (job, .made text) :: rest := fun other => by
    rw [mem_iff_of_ne (by simpa using hresult), mem_iff_of_ne (by simp)]
  obtain ⟨-, hcurrent, hrebuilt, hentry, hkept⟩ := h
  refine ⟨honTrack, hcurrent, ?_, ?_, ?_⟩
  · simpa only [hmem] using hrebuilt
  · simpa only [hmem] using hentry
  · simpa only [hmem] using hkept

/-- What a job writes that is on track is found at its place, and nothing else has changed. -/
theorem Sound.of_written (h : Sound files vendor catalog ⟨new, front ++ (job, .made text) :: rest⟩)
    (halone : ∀ entry ∈ front ++ rest, PatchJob.LeavesAlone files entry.1 job)
    (honTrack : ∀ entry ∈ front ++ (job, .ended (.ok .rebuilt)) :: rest,
      entry.1.OnTrack files vendor catalog entry.2)
    (hwrites : job.Writes files vendor catalog text place)
    (hnode : new.node? place = files.node? place) (now : Nat) :
    Sound files vendor catalog ⟨new.putFile place (Text.encode text) now,
      front ++ (job, .ended (.ok .rebuilt)) :: rest⟩ := by
  have hmade : Phase.made text ≠ .ended (.ok .rebuilt) := by simp
  obtain ⟨-, hcurrent, hrebuilt, hentry, hkept⟩ := h
  refine ⟨honTrack, (Files.putFile_current ..).trans hcurrent,
    fun other hother text' place' hwrites' => ?_, fun key hkey => ?_, fun top htop => ?_⟩
  · rcases mem_iff_of_eq.mp hother with rfl | hother
    · obtain ⟨rfl, rfl⟩ := hwrites.unique hwrites'
      exact ⟨now, Files.get?_putFile_self ..⟩
    · have hne : place.path ≠ place'.path :=
        (halone _ hother).2.passed place' hwrites'.locate hwrites'.free place
          (Files.mem_waypoints_of_locate hwrites.locate)
      obtain ⟨time, hget⟩ := hrebuilt other ((mem_iff_of_ne hmade).mpr hother) text' place' hwrites'
      exact ⟨time, (Files.sameEntry_get?_putFile hne.symm).file_iff.mpr hget⟩
  · have hne : place.path ≠ key := hkey job text place (mem_iff_of_eq.mpr (.inl rfl)) hwrites
    refine (Files.sameEntry_get?_putFile hne.symm).trans
      (hentry key fun other text' place' hother => hkey other text' place' ?_)
    exact mem_iff_of_eq.mpr (.inr ((mem_iff_of_ne hmade).mp hother))
  · obtain ⟨hne, hnew⟩ := htop job text place (mem_iff_of_eq.mpr (.inl rfl)) hwrites
    have hput : (new.putFile place (Text.encode text) now).node? top = new.node? top :=
      Files.node?_putFile_of_ne hne fun hnone => hnew (hnode ▸ hnone)
    refine hput.trans (hkept top fun other text' place' hother => htop other text' place' ?_)
    exact mem_iff_of_eq.mpr (.inr ((mem_iff_of_ne hmade).mp hother))

theorem Sound.write (h : Sound files vendor catalog ⟨new, front ++ (job, .made text) :: rest⟩)
    (halone : ∀ entry ∈ front ++ rest, PatchJob.LeavesAlone files entry.1 job) (now : Nat) :
    Sound files vendor catalog ⟨(job.finish new now (.write text)).2,
      front ++ (job, .ended (job.finish new now (.write text)).1) :: rest⟩ := by
  have hsame := h.sameAlong Nat.zero_lt_one fun entry hentry => (halone entry hentry).2
  obtain ⟨hplan, hothers⟩ : job.plan files vendor catalog = .write text ∧
      ∀ entry ∈ front ++ rest, entry.1.OnTrack files vendor catalog entry.2 :=
    forall_mem_iff.mp h.onTrack
  have honTrack : ∀ entry ∈ front ++ (job, .ended (job.finish new now (.write text)).1) :: rest,
      entry.1.OnTrack files vendor catalog entry.2 := by
    refine forall_mem_iff.mpr ⟨fun now' => ?_, hothers⟩
    rw [PatchJob.run, hplan, PatchJob.fst_finish_congr hsame now now']
  rcases PatchJob.finish_write_cases new now job text with
    ⟨fault, hfinish⟩ | ⟨written, hwrite, hfinish⟩ <;> rw [hfinish] at honTrack ⊢
  · exact h.of_failed honTrack (by simp)
  · obtain ⟨place, hplace, hdir, rfl⟩ := Files.write_eq_ok.mp hwrite
    have hwrites : job.Writes files vendor catalog text place :=
      .of_sameAlong hsame hplan hplace hdir
    exact h.of_written halone honTrack hwrites (hsame.node place hwrites.locate) now

theorem Sound.step (h : Sound files vendor catalog course)
    (hjobs : (course.jobs.map Prod.fst).Pairwise (PatchJob.Independent files))
    (hstep : Step vendor catalog times course next) : Sound files vendor catalog next := by
  cases hstep with
  | look hphase => exact h.look hphase (leavesAlone_of_pairwise hjobs)
  | write _ => exact h.write (leavesAlone_of_pairwise hjobs) _

/-- What jobs have done that leave each other alone is sound at any time. -/
theorem sound_of_reaches (hjobs : jobs.Pairwise (PatchJob.Independent files))
    (h : Reaches vendor catalog times (start files jobs) course) :
    Sound files vendor catalog course := by
  induction h with
  | refl => exact sound_start files jobs
  | tail hreaches hstep ih => exact ih.step ((map_fst_of_reaches hreaches).symm ▸ hjobs) hstep

end Course

/-! ## Passes -/

namespace Pass

open Course

variable {pass pass' : Pass}

/-- If the same jobs have been rebuilt, the same has been written. -/
theorem sameContents_of_sound (hsound : Sound files vendor catalog pass.course)
    (hsound' : Sound files vendor catalog pass'.course) (hresults : pass.results = pass'.results) :
    pass.files.SameContents pass'.files where
  current := hsound.current.trans hsound'.current.symm
  content place := by
    have hcourse : pass.course.jobs = pass'.course.jobs := by rw [course, course, hresults]
    by_cases hroot : place = []
    · rw [hroot]
      rfl
    rw [Files.node?_of_ne_nil hroot, Files.node?_of_ne_nil hroot]
    by_cases hwritten : ∃ job text place', (job, .ended (.ok .rebuilt)) ∈ pass.course.jobs ∧
        job.Writes files vendor catalog text place' ∧ place'.path = place.path
    · obtain ⟨job, text, place', hmem, hwrites, hpath⟩ := hwritten
      obtain ⟨time, hget⟩ := hsound.rebuilt job hmem text place' hwrites
      obtain ⟨time', hget'⟩ := hsound'.rebuilt job (hcourse ▸ hmem) text place' hwrites
      have hcontent : (Dictionary.get? place'.path pass.files.nodes).map Node.content? =
          (Dictionary.get? place'.path pass'.files.nodes).map Node.content? :=
        (congrArg (Option.map Node.content?) hget).trans
          (congrArg (Option.map Node.content?) hget').symm
      rwa [hpath] at hcontent
    · have hentry := hsound.entry place.path fun job text place' hmem hwrites hpath =>
        hwritten ⟨job, text, place', hmem, hwrites, hpath⟩
      have hentry' := hsound'.entry place.path fun job text place' hmem hwrites hpath =>
        hwritten ⟨job, text, place', hcourse ▸ hmem, hwrites, hpath⟩
      exact (hentry.trans hentry'.symm).map_content?

/-- Whatever the order of their steps is, the jobs do the same. -/
structure OrderFree (files : Files) (vendor : String) (catalog : Option Nat)
    (jobs : List PatchJob) :
    Prop where
  /-- However far the jobs have come, they can all come to an end. -/
  ends : ∀ {times now course}, times now → Reaches vendor catalog times (.start files jobs) course →
    ∃ pass : Pass, Reaches vendor catalog times course pass.course
  /-- In every interleaving each job ends as it does when the jobs run one after the other, and as
  it would alone. -/
  results : ∀ {times pass}, Interleaves files vendor catalog times jobs pass → ∀ now,
    pass.results = (inTurn vendor catalog now jobs files).results ∧
      pass.results = jobs.map fun job => ⟨job, (job.run files vendor catalog now).1⟩
  /-- All files have the same contents. -/
  contents : ∀ {times pass}, Interleaves files vendor catalog times jobs pass → ∀ now path,
    pass.files.read path = (inTurn vendor catalog now jobs files).files.read path
  /-- This is so if all jobs look before the first one writes. -/
  run : ∀ now,
    (run files vendor catalog now jobs).results = (inTurn vendor catalog now jobs files).results ∧
      ∀ path, (Pass.run files vendor catalog now jobs).files.read path =
        (inTurn vendor catalog now jobs files).files.read path

theorem orderFree_of_pairwise (h : jobs.Pairwise (PatchJob.Independent files)) (vendor : String)
    (catalog : Option Nat) : OrderFree files vendor catalog jobs := by
  have hagree : ∀ {times pass}, Interleaves files vendor catalog times jobs pass → ∀ now,
      (pass.results = (inTurn vendor catalog now jobs files).results ∧
        pass.results = jobs.map fun job => ⟨job, (job.run files vendor catalog now).1⟩) ∧
      ∀ path, pass.files.read path = (inTurn vendor catalog now jobs files).files.read path := by
    intro times pass hpass now
    have hinTurn :
        Interleaves files vendor catalog (· = now) jobs (inTurn vendor catalog now jobs files) :=
      interleaves_inTurn files vendor catalog jobs rfl
    have hsound := sound_of_reaches h hpass
    have hsound' := sound_of_reaches h hinTurn
    have hresults := results_eq_of_onTrack hsound.onTrack (map_fst_of_reaches hpass) now
    have hresults' := results_eq_of_onTrack hsound'.onTrack (map_fst_of_reaches hinTurn) now
    have heq := hresults.trans hresults'.symm
    exact ⟨⟨heq, hresults⟩, (sameContents_of_sound hsound hsound' heq).read⟩
  exact {
    ends := fun hnow _ => exists_pass hnow _
    results := fun hpass now => (hagree hpass now).1
    contents := fun hpass now => (hagree hpass now).2
    run := fun now => by
      have hpass :
          Interleaves files vendor catalog (· = now) jobs
            (Pass.run files vendor catalog now jobs) :=
        interleaves_run files vendor catalog jobs rfl
      exact ⟨(hagree hpass now).1.1, (hagree hpass now).2⟩ }

/-- A package with a file, another one with its artifact, and none for a third job. -/
def threeFiles : Files where
  nodes := [
    ("/lib", .directory 1),
    ("/lib/a", .directory 1),
    ("/lib/a/x.js", .file (Text.encode "x") 1),
    ("/lib/a/y.es6.js", .file (Text.encode "y") 2),
    ("/lib/a/y.js", .file (Text.encode "y") 1)]
  current := []

/-- The jobs for them. -/
def threeJobs : List PatchJob :=
  ["x", "y", "z"].map fun name =>
    ⟨"/lib/a/" ++ name ++ ".js", "/lib/a/" ++ name ++ ".es6.js", [.append "!"]⟩

/-- A package that patches one file under two names. -/
def detouring : PackageMap :=
  .ofList [("a", ⟨"1.0.0", ["x.js", "../../../p/lib/a/x.js"],
    some ⟨[("x.js", .transforms []), ("../../../p/lib/a/x.js", .transforms [])]⟩⟩)]

/-- The file. -/
def detouringFiles : Files where
  nodes := [
    ("/p", .directory 1),
    ("/p/lib", .directory 1),
    ("/p/lib/a", .directory 1),
    ("/p/lib/a/x.js", .file (Text.encode "x") 1)]
  current := []

/-- A package that patches a file, and its directory as if it were one. -/
def nesting : PackageMap :=
  .ofList [("a", ⟨"1.0.0", ["d/x.js", "d"],
    some ⟨[("d/x.js", .transforms []), ("d", .transforms [])]⟩⟩)]

/-- The file and the directory, with an artifact of the directory that is newer. -/
def nestingFiles : Files where
  nodes := [
    ("/p", .directory 1),
    ("/p/lib", .directory 1),
    ("/p/lib/a", .directory 1),
    ("/p/lib/a/d", .directory 1),
    ("/p/lib/a/d.es6", .file (Text.encode "d") 2),
    ("/p/lib/a/d/x.js", .file (Text.encode "x") 1)]
  current := []

end Pass

end Retrofit

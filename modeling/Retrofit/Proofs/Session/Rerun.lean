import Mathlib.Control.Monad.Basic
import Retrofit.Proofs.Patch.Course
import Retrofit.Proofs.Session.Stages
import Retrofit.Resolver.Installed

/-!
# Patching again after a change of the settings

Two passes follow one another, and in between the directory of libraries or the records of the
packages change, but neither the sources nor the catalog (`Rerun`). What should the second pass
leave? The measure is what it would leave if there were no artifacts (`Rerun.Clean`). In all these
passes the jobs may go on in any order.

**Theorem (`Rerun.tracks`).** Let no other job write where a job has its artifact, and none where it
has its source. What the second pass finds stale, it leaves like the pass without artifacts. But
whether an artifact is stale depends on times only, and what changes here has none. The other
artifacts stay as the first pass has left them. If that is what the first pass would have left
without artifacts as well, then it is right for the second pass if and only if the transforms and
the directory of libraries of either pass make the same text of the source.

So an artifact may be wrong after the second pass (`not_agrees`): a plugin still imports its library
from the old directory.
-/

namespace Retrofit

variable {files : Files} {vendor : String} {now : Nat}

/-! ## Transforms and the directory of libraries -/

namespace Transform

variable {vendor' source : String} {t : Transform} {transforms : List Transform}

theorem apply_congr (h : vendor = vendor' ∨ t ≠ pluginWrap) :
    t.apply vendor source = t.apply vendor' source := by
  rcases h with rfl | h
  · rfl
  · cases t with
    | pluginWrap => exact absurd rfl h
    | _ => rfl

/-- Only plugins depend on the directory of libraries. -/
theorem applyAll_congr (h : vendor = vendor' ∨ pluginWrap ∉ transforms) :
    applyAll vendor transforms source = applyAll vendor' transforms source := by
  induction transforms generalizing source with
  | nil => rfl
  | cons t rest ih =>
    have hfirst : t.apply vendor source = t.apply vendor' source :=
      apply_congr (h.imp_right fun hmem heq => hmem (heq ▸ List.mem_cons_self ..))
    rw [applyAll_cons, applyAll_cons, hfirst]
    cases t.apply vendor' source with
    | error => rfl
    | ok text => exact ih (h.imp_right fun hmem hrest => hmem (List.mem_cons_of_mem _ hrest))

end Transform

/-! ## A pass of a session -/

namespace Session

variable {s : Session} {w w' : Workspace} {job : PatchJob}

/-- The session with another directory of libraries. -/
def withVendor (s : Session) (vendor : String) : Session :=
  { s with options := { s.options with vendorPrefix := vendor } }

/-- Steps of the jobs of a session have led to the pass, in some order. -/
def Interleaves (s : Session) (w : Workspace) (pass : Pass) : Prop :=
  pass.Interleaves w.files s.options.vendorPrefix w.state.catalogModified (fun _ => True)
    (s.jobs w.state)

/-- A pass succeeds, and leads from one workspace to another. -/
def Patches (s : Session) (w w' : Workspace) : Prop :=
  ∃ pass, s.Interleaves w pass ∧ pass.Succeeds ∧ w'.files = pass.files ∧ w'.state = w.state

theorem interleaves_pass (s : Session) (now : Nat) (w : Workspace) :
    s.Interleaves w (s.pass now w) :=
  Pass.interleaves_run w.files s.options.vendorPrefix w.state.catalogModified
    (s.jobs w.state) trivial

/-- The stage that patches does this if it succeeds. -/
theorem patches_of_ok (now : Nat) (report : PatchReport)
    (h : ((s.patch now).runOn w).1 = .ok report) :
    s.Patches w ((s.patch now).runOn w).2 := by
  rw [runOn_patch] at h ⊢
  refine ⟨s.pass now w, s.interleaves_pass now w, ?_, rfl, rfl⟩
  cases hfailures : (s.pass now w).failures with
  | nil => exact hfailures
  | cons failure rest =>
    rw [Pass.outcome, hfailures] at h
    cases h

end Session

/-! ## Two passes -/

/-- Two passes that succeed, one after the other. In between the directory of libraries may change,
and with the metadata the records of the packages. The catalog, the sources and the artifacts stay
as they are. -/
structure Rerun where
  session : Session
  /-- The directory of libraries of the second pass. -/
  vendor : String
  start : Workspace
  /-- What the first pass leaves. -/
  between : Workspace
  /-- What the second pass finds. -/
  again : Workspace
  after : Workspace
  first : session.Patches start between
  second : (session.withVendor vendor).Patches again after
  directory : again.state.directory = start.state.directory
  catalog : again.state.catalog = start.state.catalog
  catalogModified : again.state.catalogModified = start.state.catalogModified
  source : ∀ job ∈ session.jobs again.state,
    again.files.get job.source = between.files.get job.source
  artifact : ∀ job ∈ session.jobs again.state,
    again.files.get job.artifact = between.files.get job.artifact

namespace Rerun

/-- The jobs of the second pass. -/
def jobs (r : Rerun) : List PatchJob :=
  r.session.jobs r.again.state

/-- Whether the second pass finds the artifact of a job stale when it begins. -/
def Stale (r : Rerun) (job : PatchJob) : Prop :=
  job.isStale r.again.files r.again.state.catalogModified = true

/-- The second pass as it would be without artifacts, in some order of its steps. -/
structure Clean (r : Rerun) where
  /-- The files that the second pass finds, but without artifacts. -/
  files : Files
  within : files.Within r.again.files
  source : ∀ job ∈ r.jobs, files.get job.source = r.again.files.get job.source
  artifact : ∀ job ∈ r.jobs, ∀ node, files.get job.artifact ≠ .ok node
  pass : Pass
  interleaves : (r.session.withVendor r.vendor).Interleaves { r.again with files } pass

/-- The artifact of a job has the text that it would have if there had been no artifacts. -/
def Agrees (r : Rerun) (c : r.Clean) (job : PatchJob) : Prop :=
  r.after.files.readText job.artifact = c.pass.files.readText job.artifact

/-- The first pass leaves the text that a job makes with its settings. -/
def LeavesMade (r : Rerun) (old : PatchJob) : Prop :=
  ∃ text, old.Makes r.session.options.vendorPrefix r.between.files (Text.encode text) ∧
    r.between.files.readText old.artifact = .ok text

/-- A job of the first pass and one of the second make the same text of their source. -/
def SameText (r : Rerun) (old job : PatchJob) : Prop :=
  ∀ bytes, r.between.files.read job.source = .ok bytes →
    Transform.applyAll r.session.options.vendorPrefix old.transforms (Text.decode bytes) =
      Transform.applyAll r.vendor job.transforms (Text.decode bytes)

/-- How the artifact of a job after the second pass compares with that of a pass over files without
artifacts. -/
structure Tracks (r : Rerun) (c : r.Clean) (job : PatchJob) : Prop where
  /-- What is stale is right afterwards. -/
  stale : r.Stale job → r.Agrees c job
  /-- What is not stale stays as the first pass has left it. -/
  kept : ¬ r.Stale job → ∀ content time,
    r.after.files.get job.artifact = .ok (.file content time) ↔
      r.between.files.get job.artifact = .ok (.file content time)
  /-- If the first pass has left what it makes itself, that is right if and only if the second pass
  would make the same. -/
  agrees_iff : ¬ r.Stale job → ∀ old : PatchJob, old.source = job.source →
    old.artifact = job.artifact → r.LeavesMade old → (r.Agrees c job ↔ r.SameText old job)
  /-- This is so in particular if the transforms are the same, and the directory of libraries is the
  same or no transform depends on it. -/
  agrees : ¬ r.Stale job → ∀ old : PatchJob, old.source = job.source →
    old.artifact = job.artifact → r.LeavesMade old → old.transforms = job.transforms →
    (r.session.options.vendorPrefix = r.vendor ∨ .pluginWrap ∉ job.transforms) → r.Agrees c job

variable {r : Rerun} {c : r.Clean} {job old : PatchJob}

/-- With the same transforms only plugins depend on what has changed. -/
theorem sameText_of_transforms_eq (h : old.transforms = job.transforms)
    (hvendor : r.session.options.vendorPrefix = r.vendor ∨ .pluginWrap ∉ job.transforms) :
    r.SameText old job := by
  intro bytes _
  rw [h]
  exact Transform.applyAll_congr hvendor

/-- The first pass leaves what it makes where it finds an artifact stale, if the job is alone. -/
theorem leavesMade_of_stale (hold : old ∈ r.session.jobs r.start.state)
    (halone : old.IsAlone r.start.files (r.session.jobs r.start.state))
    (hdir : ∀ modified, r.start.files.get old.artifact ≠ .ok (.directory modified))
    (hsource : ∀ modified, r.start.files.get old.source ≠ .ok (.directory modified))
    (hstale : old.isStale r.start.files r.start.state.catalogModified = true) :
    r.LeavesMade old := by
  obtain ⟨pass, hpass, hsucceeds, hfiles, -⟩ := r.first
  obtain ⟨text, hmakes, htext⟩ := Pass.makes_of_stale hdir (.inr hsource) halone hold hpass
    (hsucceeds.completes old) hstale
  rw [← hfiles] at htext
  refine ⟨text, hmakes.congr fun content time hget => ?_, htext⟩
  rw [hfiles]
  refine ((Course.framed_of_reaches hpass).kept old.source (fun other hother => ?_) _ _).mpr hget
  exact halone.source other (Course.map_fst_of_reaches hpass ▸ List.mem_map_of_mem hother)

/-- What the second pass would leave without artifacts. -/
theorem Clean.makes (c : r.Clean) (hjob : job ∈ r.jobs) (halone : job.IsAlone r.again.files r.jobs)
    (hcompletes : c.pass.Completes job) :
    ∃ text, job.Makes r.vendor r.again.files (Text.encode text) ∧
      c.pass.files.readText job.artifact = .ok text := by
  have hnone := c.artifact job hjob
  obtain ⟨text, hmakes, htext⟩ := Pass.makes_of_stale
    (fun modified => hnone (.directory modified)) (.inl hnone) (halone.within c.within) hjob
    c.interleaves hcompletes
    (PatchJob.isStale_of_no_artifact hnone)
  refine ⟨text, hmakes.congr fun content time hget => ?_, htext⟩
  rwa [← c.source job hjob]

/-- Where a job makes something, no directory stands at its source. -/
theorem source_ne_directory {text : String}
    (h : job.Makes r.vendor r.again.files (Text.encode text)) (modified : Nat) :
    r.again.files.get job.source ≠ .ok (.directory modified) := by
  obtain ⟨bytes, hread, -⟩ := PatchJob.makes_encode_iff.mp h
  obtain ⟨time, hget⟩ := Files.read_eq_ok.mp hread
  rw [hget]
  exact nofun

/-- The two passes leave the same if their jobs make the same text of the source. -/
theorem agrees_iff_sameText {text : String} (hjob : job ∈ r.jobs)
    (hmakes : job.Makes r.vendor r.again.files (Text.encode text))
    (hclean : c.pass.files.readText job.artifact = .ok text)
    (hkept : ∀ content time, r.between.files.get job.artifact = .ok (.file content time) →
      r.after.files.get job.artifact = .ok (.file content time))
    (hsource : old.source = job.source) (hartifact : old.artifact = job.artifact)
    (hold : r.LeavesMade old) : r.Agrees c job ↔ r.SameText old job := by
  obtain ⟨left, hleft, hbetween⟩ := hold
  rw [hartifact] at hbetween
  have hafter : r.after.files.readText job.artifact = .ok left :=
    Files.readText_of_get_imp hkept hbetween
  -- Both passes read the same source.
  obtain ⟨bytes, hread, happly⟩ := PatchJob.makes_encode_iff.mp hleft
  have hmakes' : job.Makes r.vendor r.between.files (Text.encode text) :=
    hmakes.congr fun content time hget => by rwa [← r.source job hjob]
  obtain ⟨bytes', hread', happly'⟩ := PatchJob.makes_encode_iff.mp hmakes'
  rw [hsource, hread', Except.ok.injEq] at hread
  subst hread
  have hsame : r.SameText old job ↔ left = text := by
    constructor
    · intro h
      have heq := h bytes' hread'
      rw [happly, happly'] at heq
      exact Except.ok.inj heq
    · rintro rfl other hother
      rw [hread', Except.ok.injEq] at hother
      rw [← hother, happly, happly']
  rw [Agrees, hafter, hclean, hsame, Except.ok.injEq]

/-- **When a second pass agrees with a clean one.** This is about a job that is alone, has no
directory at its artifact, and would not fail without artifacts. -/
theorem tracks (r : Rerun) (c : r.Clean) (hjob : job ∈ r.jobs)
    (halone : job.IsAlone r.again.files r.jobs)
    (hdir : ∀ modified, r.again.files.get job.artifact ≠ .ok (.directory modified))
    (hcompletes : c.pass.Completes job) : r.Tracks c job := by
  obtain ⟨text, hmakes, hclean⟩ := c.makes hjob halone hcompletes
  have hsource := source_ne_directory hmakes
  obtain ⟨pass, hpass, hsucceeds, hfiles, -⟩ := r.second
  have hkept (hfresh : ¬ r.Stale job) (content : List UInt8) (time : Nat) :
      r.after.files.get job.artifact = .ok (.file content time) ↔
        r.between.files.get job.artifact = .ok (.file content time) := by
    rw [hfiles, ← r.artifact job hjob]
    exact Pass.get_of_fresh halone hdir hsource hpass hjob
      (Bool.not_eq_true _ ▸ hfresh) content time
  have hiff (hfresh : ¬ r.Stale job) (old : PatchJob) (hsource : old.source = job.source)
      (hartifact : old.artifact = job.artifact) (hold : r.LeavesMade old) :
      r.Agrees c job ↔ r.SameText old job :=
    agrees_iff_sameText hjob hmakes hclean
      (fun _ _ => (hkept hfresh _ _).mpr) hsource hartifact hold
  constructor
  case stale =>
    intro hstale
    obtain ⟨made, hmade, hafter⟩ := Pass.makes_of_stale hdir (.inr hsource) halone hjob hpass
      (hsucceeds.completes job) hstale
    rw [Agrees, hfiles, hafter, hclean, hmade.unique hmakes]
  case kept =>
    exact hkept
  case agrees_iff =>
    exact hiff
  case agrees =>
    intro hfresh old hsource hartifact hold htransforms hvendor
    exact (hiff hfresh old hsource hartifact hold).mpr
      (sameText_of_transforms_eq htransforms hvendor)

/-! ## Libraries that are moved -/

/-- Two plugins, one of which is changed at the time of the first pass. -/
def plugins : PackageRecord where
  version := "1"
  files := ["a.js", "b.js"]
  patches := some ⟨[("a.js", .transforms [.pluginWrap]), ("b.js", .transforms [.pluginWrap])]⟩

/-- The job of the first plugin. -/
def early : PatchJob :=
  ⟨"lib/p/a.js", "lib/p/a.es6.js", [.pluginWrap]⟩

/-- The job of the second plugin. -/
def late : PatchJob :=
  ⟨"lib/p/b.js", "lib/p/b.es6.js", [.pluginWrap]⟩

/-- The plugins are not patched yet. -/
def unpatched : Workspace where
  state := { directory := "lib", packages := .ofList [("p", plugins)] }
  files := {
    nodes := [("/lib", .directory 0), ("/lib/p", .directory 0),
      ("/lib/p/a.js", .file [] 1), ("/lib/p/b.js", .file [] 2)]
    current := [] }

/-- A project with its libraries below `x`. -/
def project : Session where
  options := { root := "", vendorPrefix := "x" }
  resolver := .readOnly ""

/-- The workspace after the first pass. -/
def patched : Workspace :=
  ((project.patch 2).runOn unpatched).2

theorem state_patched : patched.state = unpatched.state := by
  rw [patched, Session.runOn_patch]

/-- The workspace after a second pass with the libraries below `y`. -/
def patchedAgain (w : Workspace) : Workspace :=
  (((project.withVendor "y").patch 3).runOn w).2

/-- The libraries are moved from `x` to `y`, and nothing else changes. -/
def moved : Rerun where
  session := project
  vendor := "y"
  start := unpatched
  between := patched
  again := patched
  after := patchedAgain patched
  first := Session.patches_of_ok 2 ⟨[early.artifact, late.artifact], []⟩ (by decide +kernel)
  second := Session.patches_of_ok 3 ⟨[late.artifact], [early.artifact]⟩ (by decide +kernel)
  directory := congrArg RunState.directory state_patched
  catalog := congrArg RunState.catalog state_patched
  catalogModified := congrArg RunState.catalogModified state_patched
  source := fun _ _ => rfl
  artifact := fun _ _ => rfl

/-- The files without the artifacts. -/
def cleaned : Files :=
  (patched.files.remove early.artifact 3).remove late.artifact 3

/-- The second pass is to be compared with a pass over these files. -/
def movedClean : moved.Clean where
  files := cleaned
  within := Files.remove_within.trans Files.remove_within
  source := by decide +kernel
  artifact := by
    have hnone : ∀ job ∈ moved.jobs, (cleaned.get job.artifact).toOption = none := by
      decide +kernel
    intro job hjob node hnode
    have hartifact := hnone job hjob
    rw [hnode] at hartifact
    cases hartifact
  pass := (project.withVendor "y").pass 3 { patched with files := cleaned }
  interleaves := Session.interleaves_pass ..

theorem jobs_moved : moved.jobs = [early, late] := by
  decide +kernel

theorem succeeds_movedClean : movedClean.pass.Succeeds := by
  unfold Pass.Succeeds
  decide +kernel

/-- **A second pass may differ from a clean one.** The first plugin still imports its library from
the directory where the libraries were. -/
theorem not_agrees :
    ¬ ∀ (r : Rerun) (c : r.Clean), c.pass.Succeeds → ∀ job ∈ r.jobs, r.Agrees c job := by
  intro h
  have hjob : early ∈ moved.jobs := jobs_moved ▸ List.mem_cons_self ..
  have hdiffer : moved.after.files.readText early.artifact ≠
      movedClean.pass.files.readText early.artifact := by
    decide +kernel
  exact hdiffer (h moved movedClean succeeds_movedClean early hjob)

/-- Neither plugin is in the way of the other, before the first pass and afterwards. -/
theorem isAlone_plugins : (∀ job ∈ [early, late], job.IsAlone unpatched.files [early, late]) ∧
    ∀ job ∈ [early, late], job.IsAlone patched.files [early, late] := by
  have hstart : [early, late].Pairwise (fun job other =>
        unpatched.files.Apart job.artifact other.artifact) ∧
      ∀ job ∈ [early, late], ∀ other ∈ [early, late],
        unpatched.files.Apart job.source other.artifact := by
    decide +kernel
  have hpatched : [early, late].Pairwise (fun job other =>
        patched.files.Apart job.artifact other.artifact) ∧
      ∀ job ∈ [early, late], ∀ other ∈ [early, late],
        patched.files.Apart job.source other.artifact := by
    decide +kernel
  exact ⟨fun job hjob => PatchJob.isAlone_of_pairwise hstart.1 (hstart.2 job hjob),
    fun job hjob => PatchJob.isAlone_of_pairwise hpatched.1 (hpatched.2 job hjob)⟩

/-- The first pass has left an artifact of each plugin, which are files as the plugins are. -/
theorem isFile_plugins : ∀ job ∈ [early, late], unpatched.files.isFile job.source = true ∧
    (unpatched.files.get job.artifact).toOption = none ∧
      patched.files.isFile job.artifact = true := by
  decide +kernel

/-- The first plugin is kept, and wrong; the second one is made again, and right. -/
theorem tracks_moved :
    moved.jobs = [early, late] ∧ ¬ moved.Agrees movedClean early ∧
      moved.Agrees movedClean late := by
  obtain ⟨haloneStart, halone⟩ := isAlone_plugins
  have htracks : ∀ job ∈ [early, late], moved.Tracks movedClean job := by
    intro job hjob
    obtain ⟨-, -, hartifact⟩ := isFile_plugins job hjob
    obtain ⟨content, time, hget⟩ := Files.isFile_iff.mp hartifact
    exact moved.tracks movedClean (jobs_moved ▸ hjob) (jobs_moved ▸ halone job hjob)
      (fun modified hdir => nomatch hget.symm.trans hdir) (succeeds_movedClean.completes job)
  have hearly : early ∈ [early, late] := List.mem_cons_self ..
  have hlate : late ∈ [early, late] := List.mem_cons_of_mem _ (List.mem_singleton_self _)
  refine ⟨jobs_moved, ?_, ?_⟩
  · have hfresh : ¬ moved.Stale early := by
      unfold Stale
      decide +kernel
    have hmade : moved.LeavesMade early := by
      obtain ⟨hsource, hartifact, -⟩ := isFile_plugins early hearly
      obtain ⟨content, time, hget⟩ := Files.isFile_iff.mp hsource
      have hjobs : moved.session.jobs moved.start.state = [early, late] := by
        decide +kernel
      refine leavesMade_of_stale (hjobs ▸ hearly) (hjobs ▸ haloneStart early hearly)
        (fun modified hdir => ?_) (fun modified hdir => nomatch hget.symm.trans hdir)
        (by decide +kernel)
      have hnone : (unpatched.files.get early.artifact).toOption = some (.directory modified) :=
        congrArg Except.toOption hdir
      rw [hartifact] at hnone
      cases hnone
    have hdiffer : Transform.applyAll "x" early.transforms (Text.decode []) ≠
        Transform.applyAll "y" early.transforms (Text.decode []) := by
      decide +kernel
    rw [(htracks early hearly).agrees_iff hfresh early rfl rfl hmade]
    intro hsame
    exact hdiffer (hsame [] (by decide +kernel))
  · have hstale : moved.Stale late := by
      unfold Stale
      decide +kernel
    exact (htracks late hlate).stale hstale

end Rerun

end Retrofit

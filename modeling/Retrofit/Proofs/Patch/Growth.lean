import Retrofit.Patch.Artifact
import Retrofit.Proofs.Files.Listing
import Retrofit.Proofs.Patch.Interleaving
import Retrofit.Proofs.Patch.Job
import Retrofit.Proofs.Path.SourceName

/-!
# What a pass adds

Where no file has the name of an artifact yet, a pass adds artifacts beside their sources and
changes no file that was there (`Files.Grown`). A job that writes does so where no file stood before
the pass (`Grown.write`), so a whole pass adds artifacts, in whichever order its jobs go on and
whichever of them fail (`Pass.grown_of_interleaves`).

An artifact may itself be the source of a job. Then the artifact of the artifact is added as well,
if that job comes late enough to find its source.

Every added file has a place below the directory at which it is found again by its name, since its
source stands beside it (`Files.ArtifactAt`). So a file whose name has no dot behind its first
character is not added, and reads as before (`Grown.get_file_iff`).
-/

namespace Retrofit

open Path

variable {files old new : Files} {path directory key marker source vendor root : String}
  {place top parent : Place} {names : List Segment} {name last : Segment} {node : Node}
    {job : PatchJob}
  {jobs : List PatchJob} {catalog : Option Nat} {now : Nat}

namespace Files

/-! ## Artifacts by their names -/

theorem segments_down (hdirectory : directory ≠ "") :
    ∃ pre, ∀ names, names ≠ [] → (∀ name ∈ names, IsName name) →
      segments (under directory (ofSegments names)) = pre ++ names := by
  obtain ⟨pre, -, hunder⟩ := segments_under_cases hdirectory
  refine ⟨pre, fun names hne hnames => ?_⟩
  rw [hunder _ (isAbsolute_ofSegments_names hnames), segments_ofSegments_names hne hnames]

/-- The path down to a name tells the name. -/
theorem basename_down (hdirectory : directory ≠ "")
    (hnames : ∀ name ∈ names ++ [last], IsName name) :
    basename (under directory (ofSegments (names ++ [last]))) = String.ofList last := by
  obtain ⟨pre, hpre⟩ := segments_down hdirectory
  rw [basename, hpre _ (List.concat_ne_nil _ _) hnames]
  simp

/-- Beside a path down leads another one. -/
theorem beside_down (hdirectory : directory ≠ "") (hnames : ∀ name ∈ names ++ [last], IsName name)
    (hname : IsName name) :
    beside (under directory (ofSegments (names ++ [last]))) (String.ofList name) =
      under directory (ofSegments (names ++ [name])) := by
  obtain ⟨pre, hpre⟩ := segments_down hdirectory
  have hnames' : ∀ other ∈ names ++ [name], IsName other :=
    List.forall_mem_append.mpr
      ⟨(List.forall_mem_append.mp hnames).1, List.forall_mem_singleton.mpr hname⟩
  refine segments_injective ?_
  have hbeside : ∀ segment ∈ (pre ++ (names ++ [last])).dropLast ++ [name], '/' ∉ segment := by
    rw [← hpre _ (List.concat_ne_nil _ _) hnames]
    exact List.forall_mem_append.mpr ⟨fun segment hmem =>
      notMem_of_mem_segments (List.dropLast_subset _ hmem),
        List.forall_mem_singleton.mpr hname.notMem⟩
  rw [beside, hpre _ (List.concat_ne_nil _ _) hnames, hpre _ (List.concat_ne_nil _ _) hnames',
    String.toList_ofList, segments_ofSegments (List.concat_ne_nil _ _) hbeside, ← List.append_assoc,
    List.dropLast_concat, List.append_assoc]

theorem isSome_of_isArtifact (h : files.isArtifact marker path = true) :
    ∃ source, sourceName? (basename path) marker = some source := by
  unfold isArtifact at h
  cases hsource : sourceName? (basename path) marker with
  | none => simp [hsource] at h
  | some source => exact ⟨source, rfl⟩

/-- The marked name beside a file is that of an artifact. -/
theorem isArtifact_down (hdirectory : directory ≠ "") (hlast : IsName last)
    (hnames : ∀ name ∈ names ++ [marked marker last], IsName name)
    (hsource : files.isFile (under directory (ofSegments (names ++ [last]))) = true) :
    files.isArtifact marker (under directory (ofSegments (names ++ [marked marker last]))) =
      true := by
  have hfound := sourceName?_marked hlast.ordinary.1 hlast.notMem marker
  simp only [isArtifact, basename_down hdirectory hnames, hfound,
    beside_down hdirectory hnames hlast, hsource]

/-- The path leads down from the directory to the place, at which an artifact is found by its
name. -/
structure ArtifactAt (files : Files) (directory marker path : String) (place : Place) : Prop where
  down : ∃ top names, names ≠ [] ∧ files.locate directory = .ok top ∧ place = top ++ names ∧
    path = under directory (ofSegments names)
  leads : files.locate path = .ok place
  artifact : files.isArtifact marker path = true

namespace ArtifactAt

/-- A file at such a place is listed. -/
theorem mem_filesAt (h : files.ArtifactAt directory marker path place) (htree : files.IsTree)
    (hwithin : files.Within new) (hnew : new.IsTree) (hfile : new.HasFile place) :
    path ∈ new.filesAt directory := by
  obtain ⟨top, names, hne, hlocate, rfl, rfl⟩ := h.down
  exact hnew.mem_filesAt_iff.mpr ⟨top, locate_within hwithin hlocate,
    .inr ⟨names, hne, htree.locate_named h.leads, hfile, rfl⟩⟩

/-- An artifact is still found as long as no file disappears. -/
theorem mono (h : files.ArtifactAt directory marker path place) (hwithin : files.Within new)
    (hfiles : ∀ path, files.isFile path = true → new.isFile path = true) :
    new.ArtifactAt directory marker path place where
  down := by
    obtain ⟨top, names, hne, hlocate, hplace, hpath⟩ := h.down
    exact ⟨top, names, hne, locate_within hwithin hlocate, hplace, hpath⟩
  leads := locate_within hwithin h.leads
  artifact := by
    have hartifact := h.artifact
    unfold Files.isArtifact at hartifact ⊢
    cases hsource : sourceName? (basename path) marker with
    | none => simp [hsource] at hartifact
    | some source =>
      rw [hsource] at hartifact
      exact hfiles _ hartifact

/-- The name at such a place has a dot behind its first character. -/
theorem dot_mem_tail (h : files.ArtifactAt directory marker path (parent ++ [last]))
    (htree : files.IsTree)
    (hmarker : '/' ∉ marker.toList) (hdirectory : directory ≠ "") : '.' ∈ last.tail := by
  obtain ⟨top, names, hne, -, hplace, rfl⟩ := h.down
  obtain ⟨front, name, rfl⟩ := names.eq_nil_or_concat'.resolve_left hne
  have hnamed := htree.locate_named h.leads
  rw [hplace, Place.named_append_iff] at hnamed
  obtain ⟨source, hsource⟩ := isSome_of_isArtifact h.artifact
  rw [basename_down hdirectory hnamed.2] at hsource
  rw [← List.append_assoc] at hplace
  obtain rfl := (List.cons.inj (List.append_inj' hplace rfl).2).1
  have hname : IsName last := hnamed.2 last (List.mem_concat_self ..)
  have hdot := dot_mem_tail_of_sourceName? hmarker (by simpa using hname.notMem) hsource
  rwa [String.toList_ofList] at hdot

end ArtifactAt

/-- **The place of a job's artifact.** If a job finds its source, and its artifact can be written,
then an artifact is found there by its name. -/
theorem exists_artifactAt (h : files.IsTree) (hmarker : '/' ∉ marker.toList)
    (hdirectory : directory ≠ "") (hsource : files.LiesUnder directory source)
    (hartifact : files.LiesUnder directory (patchedName source marker)) {content : List UInt8}
    {time : Nat} (hget : files.get source = .ok (.file content time))
    (hlocate : files.locate (patchedName source marker) = .ok place) :
    ∃ path, files.ArtifactAt directory marker path place := by
  obtain ⟨pre, last, hpath⟩ := segments_eq_concat source
  obtain ⟨place', hlocate', hnode⟩ := get_eq_ok.mp hget
  have hfile : files.HasFile place' := ⟨content, time, hnode⟩
  obtain ⟨hord, -⟩ := h.exists_parent hpath hlocate' hfile.not_isDirectory
  -- The two names stand in one directory, to which a path leads down.
  obtain ⟨parent, hparent, rfl⟩ := locate_concat hpath hord hlocate'
  obtain ⟨parent', hparent', rfl⟩ :=
    locate_concat (segments_patchedName_of hmarker hpath) (hord.marked marker) hlocate
  rw [hparent, Except.ok.injEq] at hparent'
  subst hparent'
  obtain ⟨sources, hne, hnames, hdown⟩ := hsource _ hlocate'
  obtain ⟨artifacts, hne', hnames', hdown'⟩ := hartifact _ hlocate
  obtain ⟨top, htop, -, hplace⟩ := locate_under_names hdirectory hne hnames hdown
  obtain ⟨top', htop', -, hplace'⟩ := locate_under_names hdirectory hne' hnames' hdown'
  rw [htop, Except.ok.injEq] at htop'
  subst htop'
  obtain ⟨front, name, rfl⟩ := sources.eq_nil_or_concat'.resolve_left hne
  obtain ⟨front', name', rfl⟩ := artifacts.eq_nil_or_concat'.resolve_left hne'
  rw [← List.append_assoc] at hplace hplace'
  obtain ⟨rfl, hname⟩ := List.append_inj' hplace rfl
  obtain ⟨hfront, hname'⟩ := List.append_inj' hplace' rfl
  obtain rfl := List.append_cancel_left hfront
  obtain rfl := (List.cons.inj hname).1
  obtain rfl := (List.cons.inj hname').1
  have hisFile : files.isFile (under directory (ofSegments (front ++ [last]))) = true := by
    rw [isFile, get_eq_ok.mpr ⟨_, hdown, hnode⟩]
  exact ⟨_, ⟨top, _, hne', htop, List.append_assoc .., rfl⟩, hdown',
    isArtifact_down hdirectory (hnames last (List.mem_concat_self ..)) hnames' hisFile⟩

/-- A path lies below a directory as long as the directories stay. -/
theorem LiesUnder.within (h : files.LiesUnder directory path) (hwithin : new.Within files)
    (hdirectories : files.Within new) : new.LiesUnder directory path := by
  intro place hlocate
  obtain ⟨names, hne, hnames, hdown⟩ := h place (locate_within hwithin hlocate)
  exact ⟨names, hne, hnames, locate_within hdirectories hdown⟩

/-! ## Growing -/

/-- Artifacts are added below the directory, and all files that were there are kept. -/
structure Grown (directory marker : String) (old new : Files) : Prop where
  tree : new.IsTree
  within : new.Within old
  directories : old.Within new
  kept : ∀ key, Dictionary.get? key old.nodes ≠ none →
    Node.SameEntry (Dictionary.get? key new.nodes) (Dictionary.get? key old.nodes)
  added : ∀ key node, Dictionary.get? key new.nodes = some node →
    Dictionary.get? key old.nodes = none → (∃ content time, node = .file content time) ∧
      ∃ path place, place.path = key ∧ new.ArtifactAt directory marker path place

/-- No file below the directory has the name of an artifact. -/
def Fresh (files : Files) (directory marker : String) : Prop :=
  ∀ path ∈ files.filesAt directory, sourceName? (basename path) marker = none

theorem Grown.refl (h : old.IsTree) : Grown directory marker old old where
  tree := h
  within := .refl old
  directories := .refl old
  kept := fun _ _ => .refl _
  added := fun _ _ h hnone => by rw [hnone] at h; cases h

/-- Where an artifact is found by its name, no file was before. -/
theorem Fresh.not_hasFile (h : old.Fresh directory marker) (htree : old.IsTree) (hnew : new.IsTree)
    (hwithin : new.Within old) (hat : new.ArtifactAt directory marker path place) :
    ¬ old.HasFile place := by
  intro hfile
  obtain ⟨source, hsource⟩ := isSome_of_isArtifact hat.artifact
  rw [h path (hat.mem_filesAt hnew hwithin htree hfile)] at hsource
  cases hsource

/-- A written artifact is one more, or was already one of those that have been added. -/
theorem Grown.write (h : Grown directory marker old new) (htree : old.IsTree)
    (hfresh : old.Fresh directory marker) {content : List UInt8} {after : Files}
    (hwrite : new.write path content now = .ok after)
    (hat : ∀ place, new.locate path = .ok place →
      ∃ down, new.ArtifactAt directory marker down place) :
    Grown directory marker old after := by
  have hwithin := write_within hwrite
  have hdirectories := within_write hwrite
  have hafter := h.tree.write hwrite
  have hfiles : ∀ other, new.isFile other = true → after.isFile other = true :=
    fun other => isFile_write hwrite
  obtain ⟨place, hlocate, hdir, rfl⟩ := write_eq_ok.mp hwrite
  obtain ⟨down, hartifact⟩ := hat place hlocate
  have hplace : place ≠ [] := fun heq => hdir (heq ▸ isDirectory_nil)
  -- Before the pass neither a directory nor a file stood there.
  have hnone : Dictionary.get? place.path old.nodes = none := by
    rw [← node?_of_ne_nil hplace, Option.eq_none_iff_forall_ne_some]
    intro node hnode
    cases node with
    | file content time =>
      exact hfresh.not_hasFile htree h.tree h.within hartifact ⟨content, time, hnode⟩
    | directory modified => exact hdir (h.directories.directory place ⟨modified, hnode⟩)
  refine ⟨hafter, hwithin.trans h.within, h.directories.trans hdirectories, fun key hkey => ?_,
    fun key node hkey hold => ?_⟩
  · have hne : key ≠ place.path := by
      rintro rfl
      exact hkey hnone
    exact (sameEntry_get?_putFile hne).trans (h.kept key hkey)
  · by_cases hne : key = place.path
    · subst hne
      rw [get?_putFile_self, Option.some.injEq] at hkey
      exact ⟨⟨content, now, hkey.symm⟩, down, place, rfl, hartifact.mono hdirectories hfiles⟩
    · have hsame : Node.SameEntry
          (Dictionary.get? key (new.putFile place content now).nodes)
          (Dictionary.get? key new.nodes) := sameEntry_get?_putFile hne
      cases hnew : Dictionary.get? key new.nodes with
      | none =>
        rw [hsame.none_iff.mpr hnew] at hkey
        cases hkey
      | some node' =>
        obtain ⟨⟨content', time, rfl⟩, path', place', hpath, hat'⟩ := h.added key node' hnew hold
        rw [hsame.file_iff.mpr hnew, Option.some.injEq] at hkey
        exact ⟨⟨content', time, hkey.symm⟩, path', place', hpath, hat'.mono hdirectories hfiles⟩

/-- A file that was there before is still there. -/
theorem Grown.hasFile (h : Grown directory marker old new) {content : List UInt8} {time : Nat}
    (hnode : old.node? place = some (.file content time)) :
    new.node? place = some (.file content time) := by
  have hplace : place ≠ [] := HasFile.ne_nil ⟨content, time, hnode⟩
  rw [node?_of_ne_nil hplace] at hnode ⊢
  refine (h.kept _ ?_).file_iff.mpr hnode
  rw [hnode]
  exact Option.some_ne_none _

/-- A file that was not there before has been added. -/
theorem Grown.get?_eq_none (h : Grown directory marker old new) (hfile : new.HasFile place)
    (hold : ¬ old.HasFile place) : Dictionary.get? place.path old.nodes = none := by
  by_contra hne
  obtain ⟨content, time, hnew⟩ := id hfile
  rw [node?_of_ne_nil hfile.ne_nil] at hnew
  exact hold ⟨content, time, (node?_of_ne_nil hfile.ne_nil).trans ((h.kept _ hne).file_iff.mp hnew)⟩

theorem Grown.exists_artifactAt (h : Grown directory marker old new) (hnamed : place.Named)
    (hfile : new.HasFile place) (hold : ¬ old.HasFile place) :
    ∃ path, new.ArtifactAt directory marker path place := by
  obtain ⟨content, time, hnode⟩ := id hfile
  rw [node?_of_ne_nil hfile.ne_nil] at hnode
  obtain ⟨-, path, place', heq, hat⟩ := h.added _ _ hnode (h.get?_eq_none hfile hold)
  obtain rfl := (h.tree.locate_named hat.leads).path_inj hnamed heq
  exact ⟨path, hat⟩

/-- What is found by its name has been added. -/
theorem Grown.mem_artifactsAt_iff (h : Grown directory marker old new) (htree : old.IsTree)
    (hfresh : old.Fresh directory marker) :
    path ∈ new.artifactsAt marker directory ↔
      ∃ place, new.ArtifactAt directory marker path place ∧ new.HasFile place := by
  constructor
  · intro hmem
    obtain ⟨hlisted, hartifact⟩ := List.mem_filter.mp hmem
    obtain ⟨source, hsource⟩ := isSome_of_isArtifact hartifact
    have hbefore : path ∉ old.filesAt directory := by
      intro hmem
      rw [hfresh path hmem] at hsource
      cases hsource
    obtain ⟨top, htop, hlisted⟩ := h.tree.mem_filesAt_iff.mp hlisted
    have htop' := locate_within h.within htop
    rcases hlisted with ⟨hfile, rfl⟩ | ⟨names, hne, hnamed, hfile, rfl⟩
    · -- What is added stands below the directory, so the directory is no file that has been added.
      have hold : ¬ old.HasFile top := fun hold =>
        hbefore (htree.mem_filesAt_iff.mpr ⟨top, htop', .inl ⟨hold, rfl⟩⟩)
      obtain ⟨down, hat⟩ := h.exists_artifactAt (h.tree.locate_named htop) hfile hold
      obtain ⟨top', names, hne, hdown, hplace, -⟩ := hat.down
      rw [htop, Except.ok.injEq] at hdown
      exact absurd (List.append_right_eq_self.mp (hdown ▸ hplace.symm)) hne
    · have hold : ¬ old.HasFile (top ++ names) := fun hold =>
        hbefore (htree.mem_filesAt_iff.mpr ⟨top, htop', .inr ⟨names, hne, hnamed, hold, rfl⟩⟩)
      obtain ⟨down, hat⟩ := h.exists_artifactAt hnamed hfile hold
      obtain ⟨top', names', -, hdown, hplace, rfl⟩ := id hat.down
      rw [htop, Except.ok.injEq] at hdown
      obtain rfl := List.append_cancel_left (hdown ▸ hplace)
      exact ⟨_, hat, hfile⟩
  · rintro ⟨place, hat, hfile⟩
    exact List.mem_filter.mpr ⟨hat.mem_filesAt h.tree (.refl new) h.tree hfile, hat.artifact⟩

/-- The files that have been added are those that are found by their names. -/
theorem Grown.added_iff (h : Grown directory marker old new) (htree : old.IsTree)
    (hfresh : old.Fresh directory marker) (key : String) :
    (Dictionary.get? key old.nodes = none ∧
        ∃ content time, Dictionary.get? key new.nodes = some (.file content time)) ↔
      ∃ path ∈ new.artifactsAt marker directory, ∃ place, new.locate path = .ok place ∧
        place.path = key := by
  constructor
  · rintro ⟨hold, content, time, hnew⟩
    obtain ⟨-, path, place, rfl, hat⟩ := h.added key _ hnew hold
    have hplace : place ≠ [] := by
      obtain ⟨top, names, hne, -, rfl, -⟩ := hat.down
      exact List.append_ne_nil_of_right_ne_nil top hne
    have hfile : new.HasFile place := ⟨content, time, (node?_of_ne_nil hplace).trans hnew⟩
    exact ⟨path, (h.mem_artifactsAt_iff htree hfresh).mpr ⟨place, hat, hfile⟩, place,
      hat.leads, rfl⟩
  · rintro ⟨path, hmem, place, hlocate, rfl⟩
    obtain ⟨place', hat, hfile⟩ := (h.mem_artifactsAt_iff htree hfresh).mp hmem
    rw [hat.leads, Except.ok.injEq] at hlocate
    subst hlocate
    refine ⟨h.get?_eq_none hfile (hfresh.not_hasFile htree h.tree h.within hat), ?_⟩
    obtain ⟨content, time, hnode⟩ := id hfile
    exact ⟨content, time, (node?_of_ne_nil hfile.ne_nil).symm.trans hnode⟩

/-- A path finds the file that it did before, unless it ends in a name with a dot behind its first
character. -/
theorem Grown.get_file_iff (h : Grown directory marker old new) (hmarker : '/' ∉ marker.toList)
    (hdirectory : directory ≠ "") {pre : List Segment} (hpath : segments path = pre ++ [last])
    (hlast : '.' ∉ last.tail) {content : List UInt8} {time : Nat} :
    new.get path = .ok (.file content time) ↔ old.get path = .ok (.file content time) := by
  rw [get_eq_ok, get_eq_ok]
  constructor
  · rintro ⟨place, hlocate, hnode⟩
    refine ⟨place, locate_within h.within hlocate, ?_⟩
    have hfile : new.HasFile place := ⟨content, time, hnode⟩
    rw [node?_of_ne_nil hfile.ne_nil] at hnode ⊢
    by_cases hold : Dictionary.get? place.path old.nodes = none
    · obtain ⟨-, down, place', heq, hat⟩ := h.added _ _ hnode hold
      obtain ⟨-, parent, -, rfl⟩ := h.tree.exists_parent hpath hlocate hfile.not_isDirectory
      obtain rfl := (h.tree.locate_named hat.leads).path_inj (h.tree.locate_named hlocate) heq
      exact absurd (hat.dot_mem_tail h.tree hmarker hdirectory) hlast
    · exact (h.kept _ hold).file_iff.mp hnode
  · rintro ⟨place, hlocate, hnode⟩
    exact ⟨place, locate_within h.directories hlocate, h.hasFile hnode⟩

end Files

/-! ## Jobs and passes -/

namespace Course

open Files

variable {times : Nat → Prop} {course next : Course}

/-- Artifacts have been added, and where a job is about to write one, its source is there. -/
structure Growing (directory marker : String) (old : Files) (course : Course) : Prop where
  grown : Grown directory marker old course.files
  founded : ∀ job text, (job, .made text) ∈ course.jobs → course.files.isFile job.source = true

theorem growing_start (h : old.IsTree) (jobs : List PatchJob) :
    Growing directory marker old (.start old jobs) where
  grown := .refl h
  founded job text hmem := by
    obtain ⟨other, -, heq⟩ := List.mem_map.mp hmem
    cases (Prod.mk.inj heq).2

section

variable (htree : old.IsTree) (hmarker : '/' ∉ marker.toList) (hdirectory : directory ≠ "")
  (hfresh : old.Fresh directory marker)
  (hartifact : ∀ job ∈ jobs, job.artifact = patchedName job.source marker)
  (hunder : ∀ job ∈ jobs,
    old.LiesUnder directory job.source ∧ old.LiesUnder directory job.artifact)

include htree hmarker hdirectory hfresh hartifact hunder

/-- A job that writes adds an artifact. -/
theorem Growing.step (h : Growing directory marker old course)
    (hjobs : course.jobs.map Prod.fst = jobs)
    (hstep : Step vendor catalog times course next) : Growing directory marker old next := by
  obtain ⟨hgrown, hfounded⟩ := h
  cases hstep with
  | @look new front rest job phase hphase =>
    refine ⟨hgrown, fun other text hmem => ?_⟩
    rcases List.mem_append.mp hmem with hmem | hmem
    · exact hfounded other text (List.mem_append_left _ hmem)
    rcases List.mem_cons.mp hmem with heq | hmem
    · obtain ⟨rfl, hlook⟩ := Prod.mk.inj heq
      have hfinds : other.Finds new catalog phase (other.look new vendor catalog phase) :=
        PatchJob.finds_look hphase
      rw [← hlook] at hfinds
      cases hfinds with
      | made hread =>
        obtain ⟨time, hget⟩ := read_eq_ok.mp hread
        exact isFile_iff.mpr ⟨_, time, hget⟩
    · exact hfounded other text (List.mem_append_right _ (List.mem_cons_of_mem _ hmem))
  | @write new front rest job text now hnow =>
    have hothers : ∀ other made, (other, Phase.made made) ∈ front ++ rest →
        new.isFile other.source = true := by
      intro other made hmem
      refine hfounded other made ?_
      rcases List.mem_append.mp hmem with hmem | hmem
      · exact List.mem_append_left _ hmem
      · exact List.mem_append_right _ (List.mem_cons_of_mem _ hmem)
    have hended : ∀ {result other made}, (other, Phase.made made) ∈
        front ++ (job, .ended result) :: rest → (other, Phase.made made) ∈ front ++ rest := by
      simp
    rcases PatchJob.finish_write_cases new now job text with
      ⟨fault, hfinish⟩ | ⟨written, hwrite, hfinish⟩ <;> rw [hfinish]
    · exact ⟨hgrown, fun other made hmem => hothers other made (hended hmem)⟩
    · refine ⟨hgrown.write htree hfresh hwrite fun place hlocate => ?_,
        fun other made hmem => isFile_write hwrite (hothers other made (hended hmem))⟩
      have hjob : job ∈ jobs := hjobs ▸ List.mem_map_of_mem (List.mem_append_right _
        (List.mem_cons_self ..) : (job, Phase.made text) ∈ front ++ (job, .made text) :: rest)
      have hfile : new.isFile job.source = true :=
        hfounded job text (List.mem_append_right _ (List.mem_cons_self ..))
      obtain ⟨content, time, hget⟩ := isFile_iff.mp hfile
      obtain ⟨hsource, hbelow⟩ := hunder job hjob
      rw [hartifact job hjob] at hlocate hbelow
      exact exists_artifactAt hgrown.tree hmarker hdirectory
        (hsource.within hgrown.within hgrown.directories)
        (hbelow.within hgrown.within hgrown.directories) hget hlocate

theorem growing_of_reaches (h : Reaches vendor catalog times (.start old jobs) course) :
    Growing directory marker old course := by
  induction h with
  | refl => exact growing_start htree jobs
  | tail hreaches hstep ih =>
    exact ih.step htree hmarker hdirectory hfresh hartifact hunder
      (map_fst_of_reaches hreaches) hstep

end

end Course

open Files in
/-- **What a pass adds.** -/
theorem Pass.grown_of_interleaves (htree : old.IsTree) (hmarker : '/' ∉ marker.toList)
    (hdirectory : directory ≠ "") (hfresh : old.Fresh directory marker)
    (hartifact : ∀ job ∈ jobs, job.artifact = patchedName job.source marker)
    (hunder : ∀ job ∈ jobs,
      old.LiesUnder directory job.source ∧ old.LiesUnder directory job.artifact)
    {times : Nat → Prop} {pass : Pass}
    (hpass : pass.Interleaves old vendor catalog times jobs) :
    Grown directory marker old pass.files :=
  (Course.growing_of_reaches htree hmarker hdirectory hfresh hartifact hunder hpass).grown

end Retrofit

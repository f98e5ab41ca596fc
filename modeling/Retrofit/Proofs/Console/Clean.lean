import Retrofit.Console.Commands
import Retrofit.Proofs.Patch.Growth
import Retrofit.Proofs.Patch.Separation

/-!
# Removing artifacts

No list is kept of what was written: the command that removes artifacts finds them by their names.

**Theorem (`Console.clean_undoes_pass`).** Where no file below the install directory had the name of
an artifact, removing the artifacts after a pass leaves the files as they were before it, and
removing them again finds none. This holds in whichever order the jobs went on, and whichever of
them have failed.

A pass adds artifacts only (`Pass.grown_of_interleaves`), and each of them is found by its name,
while none of the files from before is. They are listed before the first one is removed, so it does
not matter that an artifact may be the source of another one. That each removal succeeds, and takes
away nothing else, holds in every tree (`Console.cleared_removeFiles`). Only the directories tell by
their times that something has come and gone.
-/

namespace Retrofit

open Path

namespace Console

variable {files left : Files} {root path : String} {paths : List String} {s : Settings} {now : Nat}

/-- The files with the paths have been removed, and nothing else. -/
structure Cleared (files : Files) (paths : List String) (left : Files) : Prop where
  tree : left.IsTree
  current : left.current = files.current
  gone : ∀ path ∈ paths, ∀ place, files.locate path = .ok place →
    Dictionary.get? place.path left.nodes = none
  kept : ∀ key, (∀ path ∈ paths, ∀ place, files.locate path = .ok place → place.path ≠ key) →
    Node.SameEntry (Dictionary.get? key left.nodes) (Dictionary.get? key files.nodes)

/-- Files that are apart can be removed one after the other. -/
theorem cleared_removeFiles (root : String) (htree : files.IsTree)
    (hapart : paths.Pairwise files.Apart)
    (hfiles : ∀ path ∈ paths, ∃ place, files.locate path = .ok place ∧ files.HasFile place) :
    (removeFiles root now paths files).failed = false ∧
      (removeFiles root now paths files).lines =
        paths.map (fun path => .remark (Path.shown root path)) ∧
      Cleared files paths (removeFiles root now paths files).files := by
  induction paths generalizing files with
  | nil => exact ⟨rfl, rfl, htree, rfl, nofun, fun _ _ => .refl _⟩
  | cons path rest ih =>
    obtain ⟨hfirst, hrest⟩ := List.pairwise_cons.mp hapart
    obtain ⟨⟨place, hlocate, hfile⟩, hothers⟩ := List.forall_mem_cons.mp hfiles
    have hremoved : files.removeFile path now = .ok (files.remove path now) := by
      obtain ⟨content, time, hnode⟩ := hfile
      rw [Files.removeFile, Files.get_eq_ok.mpr ⟨place, hlocate, hnode⟩]
      rfl
    have hwithin : files.Within (files.remove path now) := htree.within_remove hlocate hfile
    have hnext : ∀ other ∈ rest, ∃ place, (files.remove path now).locate other = .ok place ∧
        (files.remove path now).HasFile place := by
      intro other hmem
      obtain ⟨place', hlocate', content, time, hnode⟩ := hothers other hmem
      have hne := (hfirst other hmem place place' hlocate hlocate').symm
      exact ⟨place', Files.locate_within hwithin hlocate', content, time,
        (htree.sameEntry_remove hlocate hfile fun _ => hne).file_iff.mpr hnode⟩
    have hapart' : rest.Pairwise (files.remove path now).Apart :=
      hrest.imp fun h => h.within Files.remove_within
    obtain ⟨hfailed, hlines, hcleared⟩ := ih (htree.remove hlocate hfile) hapart' hnext
    refine ⟨by simpa [removeFiles, hremoved] using hfailed,
      by simp [removeFiles, hremoved, hlines], ?_⟩
    simp only [removeFiles, hremoved]
    refine ⟨hcleared.tree, hcleared.current.trans hwithin.current.symm, ?_, fun key hkey => ?_⟩
    · refine List.forall_mem_cons.mpr ⟨fun place' hplace' => ?_, fun other hmem place' hplace' =>
        hcleared.gone other hmem place' (Files.locate_within hwithin hplace')⟩
      rw [hlocate, Except.ok.injEq] at hplace'
      subst hplace'
      refine (hcleared.kept _ fun other hmem place' hplace' => ?_).none_iff.mpr
        (Files.IsTree.get?_remove_self hlocate now)
      -- What leads somewhere after the removal has led there before.
      exact (hfirst other hmem place place' hlocate
        (Files.locate_within Files.remove_within hplace')).symm
    · obtain ⟨hplace, hkey⟩ := List.forall_mem_cons.mp hkey
      refine (hcleared.kept key fun other hmem place' hplace' =>
        hkey other hmem place' (Files.locate_within Files.remove_within hplace')).trans ?_
      exact htree.sameEntry_get?_remove hlocate hfile (hplace place hlocate).symm

/-- The command fails if a file cannot be removed, and leaves what the removals leave. -/
theorem clean_eq (s : Settings) (now : Nat) (files : Files) :
    (clean s false now files).failed = (removeFiles s.options.root now
        (files.artifactsAt s.options.marker (searched s files)) files).failed ∧
      (clean s false now files).files = (removeFiles s.options.root now
        (files.artifactsAt s.options.marker (searched s files)) files).files := by
  unfold clean
  cases hfound : files.artifactsAt s.options.marker (searched s files) with
  | nil => exact ⟨rfl, rfl⟩
  | cons first rest =>
    cases hfailed : (removeFiles s.options.root now (first :: rest) files).failed <;>
      simp [hfailed]

theorem clean_of_artifactsAt_eq_nil
    (h : files.artifactsAt s.options.marker (searched s files) = []) (now : Nat) :
    clean s false now files = ⟨false, [.success "Nothing to clean."], files⟩ := by
  simp [clean, h]

/-! ## Where artifacts are looked for -/

theorem searched_ne_empty (s : Settings) (files : Files) : searched s files ≠ "" := by
  have hdirectory : (ResolverConfig.load files s.options.root).installDirectory ≠ "" := by
    unfold ResolverConfig.installDirectory
    split
    · split_ifs with hempty
      · decide
      · simpa using hempty
    · decide
  unfold searched under
  split_ifs
  · exact hdirectory
  · simp [hdirectory]
  · simp

/-- Where artifacts are looked for depends on the file with the settings of the package manager. -/
theorem searched_congr (h : ∀ content time,
      left.get (under s.options.root ResolverConfig.fileName) = .ok (.file content time) ↔
        files.get (under s.options.root ResolverConfig.fileName) = .ok (.file content time)) :
    searched s left = searched s files := by
  have htext : ∀ text, left.readText (under s.options.root ResolverConfig.fileName) = .ok text ↔
      files.readText (under s.options.root ResolverConfig.fileName) = .ok text := fun text =>
    ⟨Files.readText_of_get_imp fun content time => (h content time).mp,
      Files.readText_of_get_imp fun content time => (h content time).mpr⟩
  have hload : ResolverConfig.load left s.options.root =
      ResolverConfig.load files s.options.root := by
    unfold ResolverConfig.load
    cases hleft : left.readText (under s.options.root ResolverConfig.fileName) with
    | ok text => rw [(htext text).mp hleft]
    | error =>
      cases hfiles : files.readText (under s.options.root ResolverConfig.fileName) with
      | ok text => simp [(htext text).mpr hfiles] at hleft
      | error => rfl
  unfold searched
  rw [hload]

/-- A pass does not change where artifacts are looked for. -/
theorem searched_of_grown (hmarker : '/' ∉ s.options.marker.toList)
    (h : Files.Grown (searched s files) s.options.marker files left) :
    searched s left = searched s files := by
  obtain ⟨pre, hpre⟩ := segments_under s.options.root
  have hpath : segments (under s.options.root ResolverConfig.fileName) =
      pre ++ [ResolverConfig.fileName.toList] := hpre _ (by decide)
  exact searched_congr fun content time =>
    h.get_file_iff hmarker (searched_ne_empty s files) hpath (by decide)

/-! ## Removing what a pass has added -/

/-- Removing artifacts at the time `now` leads back from the files after a pass to those before
it. -/
structure Undone (s : Settings) (before after : Files) (now : Nat) : Prop where
  /-- The files that are removed are those that have been created. -/
  created_iff : ∀ key,
    (Dictionary.get? key before.nodes = none ∧
        ∃ content time, Dictionary.get? key after.nodes = some (.file content time)) ↔
      ∃ path ∈ after.artifactsAt s.options.marker (searched s after), ∃ place,
        after.locate path = .ok place ∧ place.path = key
  succeeds : (clean s false now after).failed = false
  /-- All files are as they were. -/
  restored : (clean s false now after).files.SameEntries before
  /-- Nothing is found any more. -/
  again : ∀ later, clean s false later (clean s false now after).files =
    ⟨false, [.success "Nothing to clean."], (clean s false now after).files⟩

/-- Where no file has the name of an artifact, none is found. -/
theorem artifactsAt_of_fresh {directory marker : String} (h : files.Fresh directory marker) :
    files.artifactsAt marker directory = [] := by
  refine List.filter_eq_nil_iff.mpr fun path hmem hartifact => ?_
  obtain ⟨source, hsource⟩ := Files.isSome_of_isArtifact hartifact
  rw [h path hmem] at hsource
  cases hsource

/-- Without the files that have been added, the others are left. -/
theorem Cleared.sameEntries_of_grown {directory marker : String} {after : Files}
    (htree : files.IsTree) (hfresh : files.Fresh directory marker)
    (h : Files.Grown directory marker files after)
    (hcleared : Cleared after (after.artifactsAt marker directory) left) :
    left.SameEntries files := by
  refine ⟨hcleared.current.trans h.within.current, fun key => ?_⟩
  by_cases hadded : ∃ path ∈ after.artifactsAt marker directory, ∃ place,
      after.locate path = .ok place ∧ place.path = key
  · rw [((h.added_iff htree hfresh key).mpr hadded).1]
    obtain ⟨path, hmem, place, hlocate, rfl⟩ := hadded
    rw [hcleared.gone path hmem place hlocate]
    exact .refl none
  · refine (hcleared.kept key fun path hmem place hlocate heq =>
      hadded ⟨path, hmem, place, hlocate, heq⟩).trans ?_
    by_cases hold : Dictionary.get? key files.nodes = none
    · have hafter : Dictionary.get? key after.nodes = none := by
        rw [Option.eq_none_iff_forall_ne_some]
        intro node hnode
        obtain ⟨⟨content, time, rfl⟩, -⟩ := h.added key node hnode hold
        exact hadded ((h.added_iff htree hfresh key).mp ⟨hold, content, time, hnode⟩)
      rw [hold, hafter]
      exact .refl none
    · exact h.kept key hold

theorem undone_of_grown (hmarker : '/' ∉ s.options.marker.toList) (htree : files.IsTree)
    (hfresh : files.Fresh (searched s files) s.options.marker)
    (h : Files.Grown (searched s files) s.options.marker files left) (now : Nat) :
    Undone s files left now := by
  have hsearched := searched_of_grown hmarker h
  have hfiles : ∀ path ∈ left.artifactsAt s.options.marker (searched s files),
      ∃ place, left.locate path = .ok place ∧ left.HasFile place := by
    intro path hmem
    obtain ⟨place, hat, hfile⟩ := (h.mem_artifactsAt_iff htree hfresh).mp hmem
    exact ⟨place, hat.leads, hfile⟩
  have hapart : (left.artifactsAt s.options.marker (searched s files)).Pairwise left.Apart :=
    (h.tree.pairwise_filesAt (searched_ne_empty s files)).filter _
  obtain ⟨hfailed, -, hcleared⟩ := cleared_removeFiles s.options.root h.tree hapart hfiles
  obtain ⟨hcleanFailed, hcleanFiles⟩ := clean_eq s now left
  rw [hsearched] at hcleanFailed hcleanFiles
  rw [← hcleanFiles] at hcleared
  have hrestored : (clean s false now left).files.SameEntries files :=
    hcleared.sameEntries_of_grown htree hfresh h
  refine ⟨fun key => ?_, hcleanFailed.trans hfailed, hrestored, fun later => ?_⟩
  · rw [hsearched]
    exact h.added_iff htree hfresh key
  · refine clean_of_artifactsAt_eq_nil ?_ later
    rw [searched_congr fun content time => hrestored.get_file_iff]
    refine artifactsAt_of_fresh fun path hmem => hfresh path ?_
    exact (htree.mem_filesAt_congr hcleared.tree hrestored).mp hmem

/-- **Removing artifacts undoes a pass**, in whichever order its jobs went on. -/
theorem clean_undoes_pass (hmarker : '/' ∉ s.options.marker.toList) (htree : files.IsTree)
    (hfresh : ∀ path ∈ files.filesAt (searched s files),
      sourceName? (basename path) s.options.marker = none)
    {packages : PackageMap} {root directory : String}
    (hunder : ∀ job ∈ packages.jobs root directory s.options.marker,
      files.LiesUnder (searched s files) job.source ∧
        files.LiesUnder (searched s files) job.artifact)
    {vendor : String} {catalog : Option Nat} {times : Nat → Prop} {pass : Pass}
    (hpass : pass.Interleaves files vendor catalog times
      (packages.jobs root directory s.options.marker))
    (now : Nat) : Undone s files pass.files now := by
  refine undone_of_grown hmarker htree hfresh ?_ now
  exact Pass.grown_of_interleaves htree hmarker (searched_ne_empty s files) hfresh
    (fun _ => PackageMap.artifact_of_mem_jobs hmarker) hunder hpass

/-- A project in which a package has a file that is called like the dotted marker. -/
def hidden : Files where
  nodes := [("/r", .directory 1), ("/r/bower_components", .directory 1),
    ("/r/bower_components/p", .directory 1), ("/r/bower_components/p/.es6", .file [120] 1)]
  current := [['r']]

/-- The package patches the file, another one that is missing, and the artifact of the first one. -/
def hiddenPackages : PackageMap :=
  .ofList [("p", ⟨"1", [".es6", "a.js", ".es6.es6"], some ⟨[(".es6", .transforms [.append "y"]),
    ("a.js", .transforms []), (".es6.es6", .transforms [.append "z"])]⟩⟩)]

theorem isTree_hidden : hidden.IsTree := by
  refine ⟨by decide, by decide, fun key node hnode => .inr ?_⟩
  have hmem := Dictionary.mem_of_get? hnode
  simp only [hidden, List.mem_cons, Prod.mk.injEq, List.not_mem_nil, or_false] at hmem
  rcases hmem with ⟨rfl, -⟩ | ⟨rfl, -⟩ | ⟨rfl, -⟩ | ⟨rfl, -⟩
  · exact ⟨[], ['r'], by decide, by decide, 0, by decide⟩
  · exact ⟨[['r']], "bower_components".toList, by decide, by decide, 1, by decide⟩
  · exact ⟨[['r'], "bower_components".toList], ['p'], by decide, by decide, 1, by decide⟩
  · exact ⟨[['r'], "bower_components".toList, ['p']], ".es6".toList, by decide, by decide, 1,
      by decide⟩

/-- If the jobs run one after the other, the artifact is there in time for its own artifact. Both
are removed, and the job that fails leaves nothing. -/
theorem clean_undoes_pass_hidden :
    hidden.IsTree ∧
      (Pass.inTurn "" none 2 (hiddenPackages.jobs "/r" "bower_components" "es6")
        hidden).files.artifactsAt "es6" "/r/bower_components" =
          ["/r/bower_components/p/.es6.es6", "/r/bower_components/p/.es6.es6.es6"] ∧
      Undone ⟨{ root := "/r" }, "bower"⟩ hidden (Pass.inTurn "" none 2
        (hiddenPackages.jobs "/r" "bower_components" "es6") hidden).files 3 := by
  have hsearched : searched ⟨{ root := "/r" }, "bower"⟩ hidden = "/r/bower_components" := by
    decide +kernel
  have hjobs : hiddenPackages.jobs "/r" "bower_components" "es6" =
      [⟨under "/r/bower_components" (ofSegments [['p'], ".es6".toList]),
          under "/r/bower_components" (ofSegments [['p'], ".es6.es6".toList]), [.append "y"]⟩,
        ⟨under "/r/bower_components" (ofSegments [['p'], "a.js".toList]),
          under "/r/bower_components" (ofSegments [['p'], "a.es6.js".toList]), []⟩,
        ⟨under "/r/bower_components" (ofSegments [['p'], ".es6.es6".toList]),
          under "/r/bower_components" (ofSegments [['p'], ".es6.es6.es6".toList]),
          [.append "z"]⟩] := by
    decide +kernel
  have hpass : Pass.Interleaves hidden "" none (· = 2)
      (hiddenPackages.jobs "/r" "bower_components" "es6")
      (Pass.inTurn "" none 2 (hiddenPackages.jobs "/r" "bower_components" "es6") hidden) :=
    Pass.interleaves_inTurn hidden "" none _ rfl
  have hfound : (Pass.inTurn "" none 2 (hiddenPackages.jobs "/r" "bower_components" "es6")
      hidden).files.artifactsAt "es6" "/r/bower_components" =
        ["/r/bower_components/p/.es6.es6", "/r/bower_components/p/.es6.es6.es6"] := by
    decide +kernel
  have hfresh : ∀ path ∈ hidden.filesAt (searched ⟨{ root := "/r" }, "bower"⟩ hidden),
      sourceName? (basename path) "es6" = none := by
    rw [hsearched]
    decide +kernel
  have hunder : ∀ job ∈ hiddenPackages.jobs "/r" "bower_components" "es6",
      hidden.LiesUnder (searched ⟨{ root := "/r" }, "bower"⟩ hidden) job.source ∧
        hidden.LiesUnder (searched ⟨{ root := "/r" }, "bower"⟩ hidden) job.artifact := by
    rw [hsearched, hjobs]
    simp only [List.forall_mem_cons, List.not_mem_nil, false_imp_iff, implies_true, and_true]
    have hdown : ∀ name : Segment, IsName name → hidden.LiesUnder "/r/bower_components"
        (under "/r/bower_components" (ofSegments [['p'], name])) := fun name hname =>
      Files.liesUnder_down (List.cons_ne_nil _ _)
        (List.forall_mem_cons.mpr ⟨by decide, List.forall_mem_singleton.mpr hname⟩)
    exact ⟨⟨hdown _ (by decide), hdown _ (by decide)⟩, ⟨hdown _ (by decide), hdown _ (by decide)⟩,
      hdown _ (by decide), hdown _ (by decide)⟩
  have hundone := clean_undoes_pass (s := ⟨{ root := "/r" }, "bower"⟩) (by decide) isTree_hidden
    hfresh hunder hpass 3
  exact ⟨isTree_hidden, hfound, hundone⟩

end Console

end Retrofit

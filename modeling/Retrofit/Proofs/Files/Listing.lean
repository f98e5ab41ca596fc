import Retrofit.Proofs.Files.Tree

/-!
# The files below a directory

In a tree the files below a directory are listed by the paths that lead down to them from the path
of the directory (`IsTree.mem_filesAt_iff`), each once (`IsTree.pairwise_filesAt`).

Whether a path lies below a directory is asked of where it leads (`LiesUnder`), since its text does
not tell: `x/../lib` leads nowhere without an `x`, although by its text it is `lib`.
-/

namespace Retrofit.Files

open Path

variable {files : Files} {path directory key : String} {top place place' : Place}
  {names : List Segment} {name : Segment} {node : Node}

namespace IsTree

/-- A path that is listed leads down by names to the entry. -/
theorem exists_names (h : files.IsTree) (htop : top.Named) (hmem : (key, node) ∈ files.nodes)
    (hlisted : listed? directory top (key, node) = some path) :
    ∃ names, names ≠ [] ∧ Place.Named (top ++ names) ∧ key = Place.path (top ++ names) ∧
      files.HasFile (top ++ names) ∧ path = under directory (ofSegments names) := by
  cases node with
  | directory => cases hlisted
  | file content time =>
    obtain ⟨rest, hbelow, rfl⟩ := Option.map_eq_some_iff.mp hlisted
    have hnode := (Dictionary.mem_iff_get? h.sorted).mp hmem
    rcases h.entry _ _ hnode with ⟨-, modified, hroot⟩ | ⟨parent, name, rfl, hnamed, -⟩
    · cases hroot
    · obtain ⟨names, hne, hplace, rfl⟩ :=
        (below?_path htop hnamed (List.concat_ne_nil _ _)).mp hbelow
      rw [← node?_of_ne_nil (List.concat_ne_nil _ _)] at hnode
      rw [hplace] at hnode hnamed ⊢
      exact ⟨names, hne, hnamed, rfl, ⟨content, time, hnode⟩, rfl⟩

/-- Which files are listed. -/
theorem mem_filesAt_iff (h : files.IsTree) :
    path ∈ files.filesAt directory ↔ ∃ top, files.locate directory = .ok top ∧
      (files.HasFile top ∧ path = directory ∨ ∃ names, names ≠ [] ∧ Place.Named (top ++ names) ∧
        files.HasFile (top ++ names) ∧ path = under directory (ofSegments names)) := by
  unfold filesAt
  cases hlocate : files.locate directory with
  | error => simp
  | ok top =>
    have htop := h.locate_named hlocate
    simp only [Except.ok.injEq, exists_eq_left']
    constructor
    · intro hmem
      cases hnode : files.node? top with
      | none => simp [hnode] at hmem
      | some node =>
        cases node with
        | file content time =>
          simp only [hnode, List.mem_singleton] at hmem
          exact .inl ⟨⟨content, time, hnode⟩, hmem⟩
        | directory modified =>
          simp only [hnode, List.mem_filterMap, Prod.exists] at hmem
          obtain ⟨key, node, hentry, hlisted⟩ := hmem
          obtain ⟨names, hne, hnamed, -, hfile, rfl⟩ := h.exists_names htop hentry hlisted
          exact .inr ⟨names, hne, hnamed, hfile, rfl⟩
    · rintro (⟨⟨content, time, hnode⟩, rfl⟩ | ⟨names, hne, hnamed, hfile, rfl⟩)
      · simp [hnode]
      · obtain ⟨content, time, hentry⟩ := id hfile
        obtain ⟨modified, hnode⟩ := h.isDirectory_of_append hnamed hne hentry
        have hplace : top ++ names ≠ [] := List.append_ne_nil_of_right_ne_nil top hne
        rw [node?_of_ne_nil hplace] at hentry
        simp only [hnode, List.mem_filterMap, Prod.exists]
        refine ⟨_, _, Dictionary.mem_of_get? hentry, Option.map_eq_some_iff.mpr ⟨_, ?_, rfl⟩⟩
        exact (below?_path htop hnamed hplace).mpr ⟨names, hne, rfl, rfl⟩

/-- What is listed does not depend on the times of directories. -/
theorem mem_filesAt_congr {new : Files} (h : files.IsTree) (hnew : new.IsTree)
    (hsame : new.SameEntries files) :
    path ∈ new.filesAt directory ↔ path ∈ files.filesAt directory := by
  have hlocate : ∀ top, new.locate directory = .ok top ↔ files.locate directory = .ok top :=
    fun top => ⟨locate_within hsame.within, locate_within hsame.symm.within⟩
  have hfile : ∀ place, new.HasFile place ↔ files.HasFile place := fun place =>
    exists₂_congr fun content time => (hsame.sameEntry place).file_iff
  simp only [hnew.mem_filesAt_iff, h.mem_filesAt_iff, hlocate, hfile]

/-- Each file is listed once. -/
theorem pairwise_filesAt (h : files.IsTree) (hdirectory : directory ≠ "") :
    (files.filesAt directory).Pairwise files.Apart := by
  unfold filesAt
  cases hlocate : files.locate directory with
  | error => exact List.Pairwise.nil
  | ok top =>
    have htop := h.locate_named hlocate
    cases hnode : files.node? top with
    | none => simp [hnode]
    | some node =>
      cases node with
      | file => simp [hnode]
      | directory modified =>
        simp only [hnode]
        -- A listed path leads to the place with the path that the entry is kept under.
        have hleads {key path node} (hlisted : listed? directory top (key, node) = some path)
            (hentry : (key, node) ∈ files.nodes) {place} (hplace : files.locate path = .ok place) :
            place.path = key := by
          obtain ⟨names, hne, hnamed, rfl, -, rfl⟩ := h.exists_names htop hentry hlisted
          obtain ⟨top', htop', -, rfl⟩ :=
            locate_under_names hdirectory hne (Place.named_append_iff.mp hnamed).2 hplace
          rw [hlocate, Except.ok.injEq] at htop'
          rw [htop']
        refine List.pairwise_filterMap.mpr ((Dictionary.pairwise_of_keys h.sorted).imp_of_mem ?_)
        intro entry entry' hmem hmem' hlt path hpath path' hpath' place place' hplace hplace'
        rw [hleads hpath hmem hplace, hleads hpath' hmem' hplace']
        exact String.ne_of_lt hlt

end IsTree

/-! ## Paths below a directory -/

/-- If the path leads anywhere, then a path down from the directory leads there. -/
def LiesUnder (files : Files) (directory path : String) : Prop :=
  ∀ place, files.locate path = .ok place → ∃ names, names ≠ [] ∧ (∀ name ∈ names, IsName name) ∧
    files.locate (under directory (ofSegments names)) = .ok place

theorem liesUnder_down (hne : names ≠ []) (hnames : ∀ name ∈ names, IsName name) :
    files.LiesUnder directory (under directory (ofSegments names)) :=
  fun _ hlocate => ⟨names, hne, hnames, hlocate⟩

end Retrofit.Files

import Mathlib.Data.List.Induction
import Retrofit.Proofs.Except
import Retrofit.Proofs.Files.Frame
import Retrofit.Proofs.Path.Resolution

/-!
# Stores that are trees

A store is a list of entries by path. It is a tree (`Files.IsTree`) if every entry stands in a
directory, and no path of an entry has detours.

**Places.** A place is given by its path (`Place.Named.path_inj`), and paths lead to such places
(`IsTree.locate_named`). A path written down from the path of a directory leads on from there
(`locate_under_names`).

**Changes.** Nothing stands below a file (`IsTree.isDirectory_of_append`). So a removal takes away
one file (`IsTree.sameEntry_get?_remove`), and writing and removing files keeps a store a tree
(`IsTree.write`, `IsTree.remove`).
-/

namespace Retrofit

variable {files new : Files} {path directory key root : String}
  {place place' other top parent : Place}
  {names : List Path.Segment} {name segment : Path.Segment} {node : Node} {content : List UInt8}
  {time now : Nat}

namespace Path

/-- The name of something in a directory. -/
structure IsName (segment : Segment) : Prop where
  ordinary : IsOrdinary segment
  notMem : '/' ∉ segment
  null_notMem : '\x00' ∉ segment
  short : (String.ofList segment).utf8ByteSize ≤ 255

instance : DecidablePred IsName := fun segment =>
  decidable_of_iff (IsOrdinary segment ∧ '/' ∉ segment ∧ '\x00' ∉ segment ∧
      (String.ofList segment).utf8ByteSize ≤ 255)
    ⟨fun ⟨hord, hslash, hnull, hshort⟩ => ⟨hord, hslash, hnull, hshort⟩,
      fun h => ⟨h.ordinary, h.notMem, h.null_notMem, h.short⟩⟩

theorem null_notMem_of_mem_segments (hpath : '\x00' ∉ path.toList) (h : segment ∈ segments path) :
    '\x00' ∉ segment := fun hmem =>
  hpath (toList_eq_joinWith path ▸ Text.mem_joinWith_of_mem h hmem)

theorem isAbsolute_ofSegments_names (h : ∀ name ∈ names, IsName name) :
    isAbsolute (ofSegments names) = false :=
  isAbsolute_ofSegments fun name hname => ⟨(h name hname).notMem, (h name hname).ordinary.1⟩

theorem segments_ofSegments_names (hne : names ≠ []) (h : ∀ name ∈ names, IsName name) :
    segments (ofSegments names) = names :=
  segments_ofSegments hne fun name hname => (h name hname).notMem

/-- A relative path taken from a directory is written behind the path of the directory. -/
theorem exists_under (h : isAbsolute path = false) (root : String) :
    ∃ rest, under root path = root ++ rest := by
  unfold under
  rw [if_neg (by simp [h])]
  split_ifs
  · exact ⟨path, rfl⟩
  · exact ⟨"/" ++ path, String.append_assoc ..⟩

/-- A relative path taken from a directory begins with the segments of the directory, without the
empty one behind a slash at the end. -/
theorem segments_under_cases (hroot : root ≠ "") :
    ∃ pre, (segments root = pre ∨ segments root = pre ++ [[]]) ∧
      ∀ path, isAbsolute path = false → segments (under root path) = pre ++ segments path := by
  have hempty : root.isEmpty = false := by simpa using hroot
  by_cases hslash : root.toList.getLast? = some '/'
  · obtain ⟨front, hfront⟩ := List.getLast?_eq_some_iff.mp hslash
    refine ⟨Text.pieces '/' front, .inr ?_, fun path h => ?_⟩
    · rw [segments, hfront, Text.pieces_append_cons]
      rfl
    · simp [under, h, segments, hfront, Text.pieces_append_cons]
  · refine ⟨segments root, .inl rfl, fun path h => ?_⟩
    simp [under, h, hempty, hslash, segments, Text.pieces_append_cons]

end Path

open Path

/-! ## Places by their paths -/

/-- All segments of the place are names. -/
def Place.Named (place : Place) : Prop :=
  ∀ segment ∈ place, IsName segment

instance : DecidablePred Place.Named := fun place =>
  inferInstanceAs (Decidable (∀ segment ∈ place, IsName segment))

namespace Place

theorem named_nil : Named [] :=
  nofun

theorem named_append_iff : Named (place ++ names) ↔ Named place ∧ ∀ name ∈ names, IsName name :=
  List.forall_mem_append

theorem named_concat_iff : Named (place ++ [name]) ↔ Named place ∧ IsName name := by
  rw [named_append_iff, List.forall_mem_singleton]

theorem Named.of_concat (h : Named (parent ++ [name])) : Named parent :=
  (named_concat_iff.mp h).1

theorem Named.segments_path (h : Named place) (hne : place ≠ []) :
    segments place.path = [] :: place := by
  rw [path, segments_root_append, segments_ofSegments_names hne h]

/-- A place is given by its path. -/
theorem Named.path_inj (h : Named place) (h' : Named other) (heq : place.path = other.path) :
    place = other := by
  -- The path of the root is a lone slash, and ends in an empty segment.
  have hroot {place : Place} (h : Named place) (heq : Place.path [] = place.path) : place = [] := by
    by_contra hne
    have hsegments := h.segments_path hne
    rw [← heq] at hsegments
    have hplace : place = [[]] := (List.cons.inj hsegments).2.symm
    exact (h [] (hplace ▸ List.mem_singleton_self _)).ordinary.1 rfl
  by_cases hplace : place = []
  · subst hplace
    exact (hroot h' heq).symm
  · by_cases hother : other = []
    · subst hother
      exact hroot h heq.symm
    · have hsegments := congrArg segments heq
      rw [h.segments_path hplace, h'.segments_path hother] at hsegments
      exact (List.cons.inj hsegments).2

end Place

namespace Files

theorem below?_eq_some {rest : String} :
    below? directory path = some rest ↔ path = directory ++ "/" ++ rest := by
  rw [below?, Option.map_eq_some_iff]
  constructor
  · rintro ⟨cs, hstrip, rfl⟩
    rw [← String.toList_inj, Text.eq_append_of_strip? hstrip]
    simp
  · rintro rfl
    have htext : (directory ++ "/" ++ rest).toList = (directory ++ "/").toList ++ rest.toList :=
      String.toList_append
    exact ⟨rest.toList, htext ▸ Text.strip?_append _ _, String.ofList_toList⟩

/-- What is below a place has a path that begins with that of the place. -/
theorem below?_path (htop : top.Named) (hplace : place.Named) (hne : place ≠ []) {rest : String} :
    below? (if top.isEmpty then "" else top.path) place.path = some rest ↔
      ∃ names, names ≠ [] ∧ place = top ++ names ∧ rest = ofSegments names := by
  have hsegments : segments (if top.isEmpty then "" else top.path) = [] :: top := by
    cases top with
    | nil => rfl
    | cons first others => exact htop.segments_path (List.cons_ne_nil _ _)
  rw [below?_eq_some, ← segments_injective.eq_iff, segments_append_slash, hsegments,
    hplace.segments_path hne, List.cons_append, List.cons.injEq, and_iff_right rfl]
  constructor
  · intro h
    exact ⟨segments rest, Text.pieces_ne_nil _ _, h, by
      rw [← String.toList_inj, toList_eq_joinWith, ofSegments, String.toList_ofList]⟩
  · rintro ⟨names, hnames, rfl, rfl⟩
    rw [segments_ofSegments_names hnames (Place.named_append_iff.mp hplace).2]

/-! ## Steps -/

/-- Where a segment leads from a directory: it stays, or it leads up, or down to what it names. -/
theorem step_cases (h : files.step place segment = .ok place') :
    (segment = [] ∨ segment = here) ∧ place' = place ∨ segment = above ∧ place' = place.dropLast ∨
      IsOrdinary segment ∧ (String.ofList segment).utf8ByteSize ≤ 255 ∧
        place' = place ++ [segment] := by
  obtain ⟨modified, hnode⟩ := isDirectory_of_step h
  simp only [step, hnode] at h
  split_ifs at h with hstays hup hlong
  · exact .inl ⟨hstays, (Except.ok.inj h).symm⟩
  · exact .inr (.inl ⟨hup, (Except.ok.inj h).symm⟩)
  · exact .inr (.inr ⟨⟨fun hempty => hstays (.inl hempty), fun hhere => hstays (.inr hhere), hup⟩,
      Nat.not_lt.mp hlong, (Except.ok.inj h).symm⟩)

theorem step_nil (h : files.IsDirectory place) : files.step place [] = .ok place := by
  obtain ⟨modified, hnode⟩ := h
  simp [step, hnode]

/-- What it takes for a path to lead somewhere. -/
theorem locate_eq_ok :
    files.locate path = .ok place ↔ '\x00' ∉ path.toList ∧ path ≠ "" ∧ path.utf8ByteSize ≤ 4095 ∧
      (segments path).foldlM files.step (if isAbsolute path then [] else files.current) =
        .ok place := by
  rw [← Nat.not_lt]
  unfold locate
  by_cases hnul : '\x00' ∈ path.toList <;> by_cases hempty : path = "" <;>
    by_cases hlong : 4095 < path.utf8ByteSize <;> simp [hnul, hempty, hlong]

/-- Names lead down. -/
theorem eq_append_of_foldlM (hnames : ∀ name ∈ names, IsOrdinary name)
    (h : names.foldlM files.step place = .ok place') : place' = place ++ names := by
  induction names generalizing place with
  | nil =>
    cases h
    exact (List.append_nil _).symm
  | cons name rest ih =>
    obtain ⟨⟨hempty, hhere, habove⟩, hrest⟩ := List.forall_mem_cons.mp hnames
    rw [List.foldlM_cons, bind_eq_ok] at h
    obtain ⟨next, hstep, hfold⟩ := h
    obtain ⟨hstays, -⟩ | ⟨hup, -⟩ | ⟨-, -, rfl⟩ := step_cases hstep
    · exact absurd hstays (not_or.mpr ⟨hempty, hhere⟩)
    · exact absurd hup habove
    · rw [ih hrest hfold, List.append_assoc, List.singleton_append]

theorem isDirectory_of_foldlM (hne : names ≠ []) (h : names.foldlM files.step place = .ok place') :
    files.IsDirectory place := by
  cases names with
  | nil => exact absurd rfl hne
  | cons name rest =>
    rw [List.foldlM_cons, bind_eq_ok] at h
    obtain ⟨next, hstep, -⟩ := h
    exact isDirectory_of_step hstep

/-- A path that leads down from a directory leads below it. -/
theorem locate_under_names (hdirectory : directory ≠ "") (hne : names ≠ [])
    (hnames : ∀ name ∈ names, IsName name)
    (h : files.locate (under directory (ofSegments names)) = .ok place) :
    ∃ top, files.locate directory = .ok top ∧ files.IsDirectory top ∧ place = top ++ names := by
  obtain ⟨pre, hpre, hunder⟩ := segments_under_cases hdirectory
  have hrelative := isAbsolute_ofSegments_names hnames
  obtain ⟨hnul, -, hlong, hfold⟩ := locate_eq_ok.mp h
  rw [hunder _ hrelative, segments_ofSegments_names hne hnames, isAbsolute_under hrelative,
    List.foldlM_append, bind_eq_ok] at hfold
  obtain ⟨top, htop, hfold⟩ := hfold
  have hdir : files.IsDirectory top := isDirectory_of_foldlM hne hfold
  have hlocate : (segments directory).foldlM files.step
      (if isAbsolute directory then [] else files.current) = .ok top := by
    rcases hpre with hpre | hpre
    · rw [hpre, htop]
    · rw [hpre, List.foldlM_append, htop, ok_bind, List.foldlM_cons, step_nil hdir]
      rfl
  obtain ⟨rest, hrest⟩ := exists_under hrelative directory
  rw [hrest] at hnul hlong
  refine ⟨top, locate_eq_ok.mpr ⟨fun hmem => hnul ?_, hdirectory, ?_, hlocate⟩, hdir,
    eq_append_of_foldlM (fun name hname => (hnames name hname).ordinary) hfold⟩
  · rw [String.toList_append]
    exact List.mem_append_left _ hmem
  · rw [String.utf8ByteSize_append] at hlong
    omega

/-! ## Trees -/

/-- A file stands at a place. -/
def HasFile (files : Files) (place : Place) : Prop :=
  ∃ content time, files.node? place = some (.file content time)

theorem HasFile.not_isDirectory (h : files.HasFile place) : ¬ files.IsDirectory place := by
  obtain ⟨content, time, hfile⟩ := h
  rintro ⟨modified, hdir⟩
  rw [hfile] at hdir
  cases hdir

/-- Every entry stands in a directory, under a path without detours. -/
structure IsTree (files : Files) : Prop where
  current : files.current.Named
  sorted : (Dictionary.keys files.nodes).Pairwise (· < ·)
  /-- An entry is the root, or has a name in a directory. -/
  entry : ∀ key node, Dictionary.get? key files.nodes = some node →
    (key = Place.path [] ∧ ∃ modified, node = .directory modified) ∨
    ∃ parent name, key = Place.path (parent ++ [name]) ∧ Place.Named (parent ++ [name]) ∧
      files.IsDirectory parent

theorem HasFile.ne_nil (h : files.HasFile place) : place ≠ [] :=
  fun heq => h.not_isDirectory (heq ▸ isDirectory_nil)

namespace IsTree

theorem isDirectory_of_concat (h : files.IsTree) (hnamed : Place.Named (parent ++ [name]))
    (hnode : files.node? (parent ++ [name]) = some node) : files.IsDirectory parent := by
  rw [node?_of_ne_nil (List.concat_ne_nil _ _)] at hnode
  rcases h.entry _ _ hnode with ⟨hroot, -⟩ | ⟨parent', name', hpath, hnamed', hdir⟩
  · exact absurd (hnamed.path_inj Place.named_nil hroot) (List.concat_ne_nil _ _)
  · obtain ⟨rfl, -⟩ := List.append_inj' (hnamed.path_inj hnamed' hpath) rfl
    exact hdir

/-- What has something below it is a directory. -/
theorem isDirectory_of_append (h : files.IsTree) (hnamed : Place.Named (top ++ names))
    (hne : names ≠ [])
    (hnode : files.node? (top ++ names) = some node) : files.IsDirectory top := by
  induction names using List.reverseRecOn generalizing node with
  | nil => exact absurd rfl hne
  | append_singleton front last ih =>
    rw [← List.append_assoc] at hnamed hnode
    have hdir := h.isDirectory_of_concat hnamed hnode
    by_cases hfront : front = []
    · rwa [hfront, List.append_nil] at hdir
    · obtain ⟨modified, hnode⟩ := hdir
      exact ih hnamed.of_concat hfront hnode

theorem isDirectory_dropLast (h : files.IsTree) (hnamed : place.Named)
    (hdir : files.IsDirectory place) :
    files.IsDirectory place.dropLast := by
  rcases place.eq_nil_or_concat' with rfl | ⟨parent, name, rfl⟩
  · exact hdir
  · obtain ⟨modified, hnode⟩ := hdir
    rw [List.dropLast_concat]
    exact h.isDirectory_of_concat hnamed hnode

/-! ## Paths in a tree -/

theorem named_of_foldlM (hplace : place.Named) {segments : List Segment}
    (hsegments : ∀ segment ∈ segments, '/' ∉ segment ∧ '\x00' ∉ segment)
    (h : segments.foldlM files.step place = .ok place') : place'.Named := by
  induction segments generalizing place with
  | nil =>
    cases h
    exact hplace
  | cons segment rest ih =>
    obtain ⟨⟨hslash, hnull⟩, hrest⟩ := List.forall_mem_cons.mp hsegments
    rw [List.foldlM_cons, bind_eq_ok] at h
    obtain ⟨next, hstep, hfold⟩ := h
    refine ih ?_ hrest hfold
    rcases step_cases hstep with ⟨-, rfl⟩ | ⟨-, rfl⟩ | ⟨hord, hshort, rfl⟩
    · exact hplace
    · exact fun segment hmem => hplace segment (List.dropLast_subset _ hmem)
    · exact Place.named_concat_iff.mpr ⟨hplace, hord, hslash, hnull, hshort⟩

theorem named_start (h : files.IsTree) (path : String) :
    Place.Named (if isAbsolute path then [] else files.current) := by
  split_ifs
  · exact Place.named_nil
  · exact h.current

/-- A path leads to a place with names. -/
theorem locate_named (h : files.IsTree) (hlocate : files.locate path = .ok place) :
    place.Named := by
  obtain ⟨hnull, -, -, hfold⟩ := locate_eq_ok.mp hlocate
  exact named_of_foldlM (h.named_start path) (fun _ hmem =>
    ⟨notMem_of_mem_segments hmem, null_notMem_of_mem_segments hnull hmem⟩) hfold

/-- Unless a path leads to a directory, it ends in a name in one. -/
theorem exists_parent (h : files.IsTree) {pre : List Segment}
    (hpath : segments path = pre ++ [segment])
    (hlocate : files.locate path = .ok place) (hdir : ¬ files.IsDirectory place) :
    IsOrdinary segment ∧ ∃ parent, files.IsDirectory parent ∧ place = parent ++ [segment] := by
  obtain ⟨hnull, -, -, hfold⟩ := locate_eq_ok.mp hlocate
  have hplain : ∀ segment ∈ pre, '/' ∉ segment ∧ '\x00' ∉ segment := by
    intro segment hmem
    have hmem : segment ∈ segments path := hpath ▸ List.mem_append_left _ hmem
    exact ⟨notMem_of_mem_segments hmem, null_notMem_of_mem_segments hnull hmem⟩
  rw [hpath, List.foldlM_append, bind_eq_ok] at hfold
  obtain ⟨parent, hparent, hlast⟩ := hfold
  simp only [List.foldlM_cons, List.foldlM_nil, bind_pure] at hlast
  have hdirectory := isDirectory_of_step hlast
  rcases step_cases hlast with ⟨-, rfl⟩ | ⟨-, rfl⟩ | ⟨hord, -, rfl⟩
  · exact absurd hdirectory hdir
  · have hnamed : parent.Named := named_of_foldlM (h.named_start path) hplain hparent
    exact absurd (h.isDirectory_dropLast hnamed hdirectory) hdir
  · exact ⟨hord, parent, hdirectory, rfl⟩

/-! ## Changes -/

/-- A store stays a tree if its directories stay, and new entries have names in them. -/
theorem of_entries (h : files.IsTree) (hwithin : files.Within new)
    (hsorted : (Dictionary.keys new.nodes).Pairwise (· < ·))
    (hentries : ∀ key, Dictionary.get? key new.nodes = none ∨
      Node.SameEntry (Dictionary.get? key new.nodes) (Dictionary.get? key files.nodes) ∨
      ∃ parent name, key = Place.path (parent ++ [name]) ∧ Place.Named (parent ++ [name]) ∧
        files.IsDirectory parent) : new.IsTree := by
  refine ⟨hwithin.current ▸ h.current, hsorted, fun key node hnode => ?_⟩
  rcases hentries key with hnone | hsame | ⟨parent, name, hpath, hnamed, hparent⟩
  · rw [hnode] at hnone
    cases hnone
  · cases hold : Dictionary.get? key files.nodes with
    | none =>
      rw [hsame.none_iff.mpr hold] at hnode
      cases hnode
    | some old =>
      rcases h.entry key old hold with ⟨rfl, modified, rfl⟩ | ⟨parent, name, hpath, hnamed, hparent⟩
      · obtain ⟨modified', hnew⟩ := hsame.directory_iff.mpr ⟨modified, hold⟩
        exact .inl ⟨rfl, modified', Option.some.inj (hnode.symm.trans hnew)⟩
      · exact .inr ⟨parent, name, hpath, hnamed, hwithin.directory parent hparent⟩
  · exact .inr ⟨parent, name, hpath, hnamed, hwithin.directory parent hparent⟩

theorem pairwise_keys_touch (h : (Dictionary.keys files.nodes).Pairwise (· < ·)) (top : Place)
    (now : Nat) : (Dictionary.keys (files.touch top now).nodes).Pairwise (· < ·) := by
  unfold touch
  split_ifs
  · exact h
  · rcases files.node? top with _ | _ | modified
    · exact h
    · exact h
    · exact Dictionary.pairwise_keys_insert h

/-- Writing a file leaves a tree. -/
theorem write (h : files.IsTree) (hwrite : files.write path content now = .ok new) :
    new.IsTree := by
  have hwithin := within_write hwrite
  obtain ⟨place, hlocate, hdir, rfl⟩ := write_eq_ok.mp hwrite
  refine h.of_entries hwithin ?_ fun key => ?_
  · unfold putFile put
    dsimp only
    refine Dictionary.pairwise_keys_insert ?_
    split_ifs
    · exact pairwise_keys_touch h.sorted _ _
    · exact h.sorted
  · by_cases hkey : key = place.path
    · obtain ⟨pre, last, hpath⟩ := segments_eq_concat path
      obtain ⟨-, parent, hparent, rfl⟩ := h.exists_parent hpath hlocate hdir
      exact .inr (.inr ⟨parent, last, hkey, h.locate_named hlocate, hparent⟩)
    · exact .inr (.inl (sameEntry_get?_putFile hkey))

/-! ## Removing -/

/-- No entry has a path that leads on from a file. -/
theorem get?_below (h : files.IsTree) (hnamed : place.Named) (hfile : files.HasFile place)
    {rest : String}
    (hbelow : below? place.path key = some rest) : Dictionary.get? key files.nodes = none := by
  have hplace := hfile.ne_nil
  rw [Option.eq_none_iff_forall_ne_some]
  intro node hnode
  rcases h.entry key node hnode with ⟨rfl, -⟩ | ⟨parent, name, rfl, hnamed', -⟩
  · -- The path of the root has no segment left for the file.
    have hlength := congrArg (fun path => (segments path).length) (below?_eq_some.mp hbelow)
    have hroot : (segments (Place.path [])).length = 2 := rfl
    have hrest : 0 < (segments rest).length := List.length_pos_of_ne_nil (Text.pieces_ne_nil _ _)
    have hpos : 0 < place.length := List.length_pos_of_ne_nil hplace
    simp only [hroot, segments_append_slash, hnamed.segments_path hplace, List.length_append,
      List.length_cons] at hlength
    omega
  · have hbelow' :
        below? (if place.isEmpty then "" else place.path) (Place.path (parent ++ [name])) =
        some rest := by
      rwa [if_neg (by simpa using hplace)]
    obtain ⟨names, hne, heq, -⟩ := (below?_path hnamed hnamed' (List.concat_ne_nil _ _)).mp hbelow'
    rw [← node?_of_ne_nil (List.concat_ne_nil _ _), heq] at hnode
    exact hfile.not_isDirectory (h.isDirectory_of_append (heq ▸ hnamed') hne hnode)

theorem get?_remove_self (hlocate : files.locate path = .ok place) (now : Nat) :
    Dictionary.get? place.path (files.remove path now).nodes = none := by
  simp only [remove, hlocate]
  rw [Dictionary.get?_filter fun p => p != place.path && (below? place.path p).isNone]
  simp

/-- Nothing stands below a file, so only the file is removed. -/
theorem sameEntry_get?_remove (h : files.IsTree) (hlocate : files.locate path = .ok place)
    (hfile : files.HasFile place) (hkey : key ≠ place.path) :
    Node.SameEntry (Dictionary.get? key (files.remove path now).nodes)
      (Dictionary.get? key files.nodes) := by
  have hsome : (files.node? place).isSome = true := by
    obtain ⟨content, time, hnode⟩ := hfile
    rw [hnode]
    rfl
  simp only [remove, hlocate, hsome, if_true]
  rw [Dictionary.get?_filter fun p => p != place.path && (below? place.path p).isNone]
  have htouch := sameEntry_get?_touch files place.dropLast now key
  cases hbelow : below? place.path key with
  | none => simpa [hkey] using htouch
  | some rest =>
    simp [h.get?_below (h.locate_named hlocate) hfile hbelow, Node.SameEntry.refl]

theorem sameEntry_remove (h : files.IsTree) (hlocate : files.locate path = .ok place)
    (hfile : files.HasFile place) (hne : other ≠ [] → other.path ≠ place.path) :
    Node.SameEntry ((files.remove path now).node? other) (files.node? other) := by
  by_cases hother : other = []
  · rw [hother]
    rfl
  · exact sameEntry_of_get? (h.sameEntry_get?_remove hlocate hfile (hne hother))

/-- The directories stay when a file is removed. -/
theorem within_remove (h : files.IsTree) (hlocate : files.locate path = .ok place)
    (hfile : files.HasFile place) : files.Within (files.remove path now) := by
  refine ⟨remove_within.current.symm, fun directory hdir => ?_⟩
  by_cases hpath : directory ≠ [] → directory.path ≠ place.path
  · exact (h.sameEntry_remove hlocate hfile hpath).directory_iff.mpr hdir
  · push Not at hpath
    have hplace := hfile.ne_nil
    obtain ⟨content, time, hentry⟩ := hfile
    obtain ⟨modified, hnode⟩ := hdir
    rw [node?_of_ne_nil hpath.1, hpath.2, ← node?_of_ne_nil hplace, hentry] at hnode
    cases hnode

/-- Removing a file leaves a tree. -/
theorem remove (h : files.IsTree) (hlocate : files.locate path = .ok place)
    (hfile : files.HasFile place) : (files.remove path now).IsTree := by
  refine h.of_entries (h.within_remove hlocate hfile) ?_ fun key => ?_
  · rw [Files.remove, hlocate]
    dsimp only
    refine List.Pairwise.sublist (List.filter_sublist.map Prod.fst) ?_
    split_ifs
    · exact pairwise_keys_touch h.sorted _ _
    · exact h.sorted
  · by_cases hkey : key = place.path
    · rw [hkey]
      exact .inl (get?_remove_self hlocate now)
    · exact .inr (.inl (h.sameEntry_get?_remove hlocate hfile hkey))

end IsTree

end Files

end Retrofit

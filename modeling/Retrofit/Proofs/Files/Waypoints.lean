import Retrofit.Proofs.Files.Tree

/-!
# The places that a path comes to

Where a path leads depends on all the places on its way (`Files.waypoints`), since each but the last
has to be a directory. So two stores that hold the same there are the same for the path
(`Files.sameAlong_of_waypoints`), be it that it leads somewhere, or why it does not. Only at the
last place does the time matter.

**Paths aside.** What is written at one path cannot be seen along another one if the first leads to
none of the places that the second comes to, and is no new entry of the directory that the second
leads to (`Files.Aside`). Where both paths lead down from one directory by names, this is so if the
names of the first are not the first ones of the second, and do not go on from it by one name
(`Files.aside_of_segments`).

**Contents.** Where paths lead and what they read does not depend on times (`Files.SameContents`).
-/

namespace Retrofit

open Path

/-- The bytes of a file; a directory has none. -/
def Node.content? : Node → Option (List UInt8)
  | .file content _ => some content
  | .directory _ => none

theorem Node.SameEntry.map_content? {new old : Option Node} (h : SameEntry new old) :
    new.map content? = old.map content? := by
  unfold SameEntry at h
  rcases new with _ | _ | _ <;> rcases old with _ | _ | _ <;> simp_all [untimed, content?]

variable {files new old : Files} {path other artifact : String} {place place' top passed : Place}
  {pre names names' segments : List Segment}

namespace Files

/-- The places that segments lead to one after the other, as long as there are directories. -/
def waypointsFrom (files : Files) : Place → List Segment → List Place
  | place, [] => [place]
  | place, segment :: rest =>
    place :: match files.step place segment with
      | .ok next => waypointsFrom files next rest
      | .error _ => []

/-- The places that a path comes to, the first and the last one included. -/
def waypoints (files : Files) (path : String) : List Place :=
  files.waypointsFrom (if isAbsolute path then [] else files.current) (Path.segments path)

theorem mem_waypointsFrom_of_foldlM (h : segments.foldlM files.step place = .ok place') :
    place' ∈ files.waypointsFrom place segments := by
  induction segments generalizing place with
  | nil =>
    cases h
    exact List.mem_singleton_self _
  | cons segment rest ih =>
    rw [List.foldlM_cons, bind_eq_ok] at h
    obtain ⟨next, hstep, hfold⟩ := h
    rw [waypointsFrom, hstep]
    exact List.mem_cons_of_mem _ (ih hfold)

theorem mem_waypoints_of_locate (h : files.locate path = .ok place) :
    place ∈ files.waypoints path := by
  obtain ⟨-, -, -, hfold⟩ := locate_eq_ok.mp h
  exact mem_waypointsFrom_of_foldlM hfold

/-! ## Stores that are the same along a path -/

/-- A step depends on what stands at the place, but not on times. -/
theorem step_congr (h : (new.node? place).map Node.content? = (old.node? place).map Node.content?)
    (segment : Segment) : new.step place segment = old.step place segment := by
  unfold step
  rcases hnew : new.node? place with _ | ⟨content, time⟩ | time <;>
    rcases hold : old.node? place with _ | ⟨content', time'⟩ | time' <;>
      simp [hnew, hold, Node.content?] at h <;> rfl

theorem foldlM_step_congr (h : ∀ passed ∈ old.waypointsFrom place segments,
      Node.SameEntry (new.node? passed) (old.node? passed)) :
    segments.foldlM new.step place = segments.foldlM old.step place := by
  induction segments generalizing place with
  | nil => rfl
  | cons segment rest ih =>
    rw [waypointsFrom] at h
    have hplace : Node.SameEntry (new.node? place) (old.node? place) :=
      h place (List.mem_cons_self ..)
    rw [List.foldlM_cons, List.foldlM_cons, step_congr hplace.map_content?]
    cases hnext : old.step place segment with
    | error fault => rfl
    | ok next =>
      rw [hnext] at h
      exact ih fun passed hpassed => h passed (List.mem_cons_of_mem _ hpassed)

/-- The path leads to the same place in both stores, or nowhere for the same reason, and finds the
same there. -/
structure SameAlong (new old : Files) (path : String) : Prop where
  locate : new.locate path = old.locate path
  node : ∀ place, old.locate path = .ok place → new.node? place = old.node? place

theorem sameAlong_of_waypoints (hcurrent : new.current = old.current)
    (h : ∀ passed ∈ old.waypoints path, Node.SameEntry (new.node? passed) (old.node? passed))
    (hnode : ∀ place, old.locate path = .ok place → new.node? place = old.node? place) :
    new.SameAlong old path where
  locate := by
    unfold Files.locate
    dsimp only
    rw [hcurrent, foldlM_step_congr h]
  node := hnode

namespace SameAlong

theorem get (h : new.SameAlong old path) : new.get path = old.get path := by
  unfold Files.get
  rw [h.locate]
  cases hplace : old.locate path with
  | error fault => rfl
  | ok place => rw [ok_bind, ok_bind, h.node place hplace]

theorem modified (h : new.SameAlong old path) : new.modified path = old.modified path := by
  rw [Files.modified, Files.modified, h.get]

theorem read (h : new.SameAlong old path) : new.read path = old.read path := by
  rw [Files.read, Files.read, h.get]

end SameAlong

/-! ## Paths aside -/

/-- What is written at the path `artifact` neither stands at a place that the other path comes to,
nor is it a new entry of the directory that the other path leads to. To a directory nothing is
written. -/
structure Aside (files : Files) (artifact path : String) : Prop where
  passed : ∀ place, files.locate artifact = .ok place → ¬ files.IsDirectory place →
    ∀ passed ∈ files.waypoints path, passed.path ≠ place.path
  entry : ¬ files.AddsTo artifact path

theorem waypointsFrom_append (hfold : pre.foldlM files.step place = .ok top)
    (h : passed ∈ files.waypointsFrom place (pre ++ names)) :
    files.IsDirectory passed ∨ passed ∈ files.waypointsFrom top names := by
  induction pre generalizing place with
  | nil =>
    cases hfold
    exact .inr h
  | cons segment rest ih =>
    rw [List.foldlM_cons, bind_eq_ok] at hfold
    obtain ⟨next, hstep, hfold⟩ := hfold
    rw [List.cons_append, waypointsFrom, hstep] at h
    rcases List.mem_cons.mp h with rfl | h
    · exact .inl (isDirectory_of_step hstep)
    · exact ih hfold h

theorem foldlM_singleton {segment : Segment} (h : files.step top segment = .ok place) :
    [segment].foldlM files.step top = .ok place := by
  rw [List.foldlM_cons, h]
  rfl

/-- Names lead to the places that begin with the first of them. -/
theorem exists_prefix_of_mem_waypointsFrom (hnames : ∀ name ∈ names, IsOrdinary name)
    (h : passed ∈ files.waypointsFrom top names) :
    ∃ front, front <+: names ∧ passed = top ++ front := by
  induction names generalizing top with
  | nil => exact ⟨[], List.prefix_rfl, by simpa [waypointsFrom] using h⟩
  | cons name rest ih =>
    obtain ⟨hname, hrest⟩ := List.forall_mem_cons.mp hnames
    rw [waypointsFrom] at h
    rcases List.mem_cons.mp h with rfl | h
    · exact ⟨[], List.nil_prefix, (List.append_nil _).symm⟩
    · cases hstep : files.step top name with
      | error fault => simp [hstep] at h
      | ok next =>
        rw [hstep] at h
        have hnext : next = top ++ [name] :=
          eq_append_of_foldlM (List.forall_mem_singleton.mpr hname) (foldlM_singleton hstep)
        obtain ⟨front, hfront, rfl⟩ := ih hrest h
        refine ⟨name :: front, (List.prefix_cons_inj name).mpr hfront, ?_⟩
        rw [hnext, List.append_assoc, List.singleton_append]

end Files

/-- The segments of the path of a place end in the names behind a directory. -/
theorem Place.exists_segments_path (hne : top ≠ []) :
    ∃ front, ∀ names : List Segment, (∀ name ∈ names, '/' ∉ name) →
      Path.segments (Place.path (top ++ names)) = front ++ names := by
  refine ⟨[] :: Text.pieces '/' (Text.joinWith ['/'] top), fun names hnames => ?_⟩
  rw [Place.path, segments_root_append, List.cons_append, ofSegments, Path.segments,
    String.toList_ofList]
  congr 1
  induction names using List.reverseRecOn with
  | nil => simp
  | append_singleton front last ih =>
    obtain ⟨hfront, hlast⟩ := List.forall_mem_append.mp hnames
    rw [← List.append_assoc, Text.joinWith_concat, if_neg (by simp [hne])]
    rw [List.append_assoc, List.singleton_append, Text.pieces_append_cons, ih hfront,
      List.append_assoc, Text.pieces_of_notMem (hlast last (List.mem_singleton_self _))]

/-- A way down by names does not lead to the root. -/
theorem Place.path_append_ne_root (hne : names ≠ []) (hnames : ∀ name ∈ names, IsOrdinary name) :
    Place.path (top ++ names) ≠ Place.path [] := by
  obtain ⟨front, last, rfl⟩ := List.eq_nil_or_concat' names |>.resolve_left hne
  obtain ⟨text, htext⟩ := exists_front (top ++ front)
  intro h
  rw [← List.append_assoc, Place.path, Place.path, String.append_right_inj, ofSegments, ofSegments,
    String.ofList_inj, htext] at h
  exact (hnames last (List.mem_concat_self ..)).1 (List.append_eq_nil_iff.mp h).2

/-- Two ways down by names lead to two places. -/
theorem Place.path_append_inj (hnames : ∀ name ∈ names, '/' ∉ name ∧ name ≠ [])
    (hnames' : ∀ name ∈ names', '/' ∉ name ∧ name ≠ [])
    (h : Place.path (top ++ names) = Place.path (top ++ names')) : names = names' := by
  have hslash : ∀ name ∈ names, '/' ∉ name := fun name hmem => (hnames name hmem).1
  have hslash' : ∀ name ∈ names', '/' ∉ name := fun name hmem => (hnames' name hmem).1
  have hsegments := congrArg Path.segments h
  by_cases htop : top = []
  · subst htop
    -- The path of the root ends in an empty segment, which is no name.
    have hpath : ∀ {names : List Segment}, (∀ name ∈ names, '/' ∉ name) →
        Path.segments (Place.path ([] ++ names)) = [] :: if names = [] then [[]] else names := by
      intro names hnames
      rw [List.nil_append, Place.path, segments_root_append]
      split_ifs with hne
      · rw [hne]
        rfl
      · rw [segments_ofSegments hne hnames]
    rw [hpath hslash, hpath hslash', List.cons.injEq, and_iff_right rfl] at hsegments
    split_ifs at hsegments with hne hne' hne'
    · rw [hne, hne']
    · exact absurd rfl (hnames' [] (hsegments ▸ List.mem_singleton_self _)).2
    · exact absurd rfl (hnames [] (hsegments ▸ List.mem_singleton_self _)).2
    · exact hsegments
  · obtain ⟨front, hfront⟩ := exists_segments_path htop
    rw [hfront names hslash, hfront names' hslash'] at hsegments
    exact List.append_cancel_left hsegments

namespace Files

/-- Whether a path that goes on with names is absolute depends on what is in front of them. -/
theorem isAbsolute_of_names (hpath : Path.segments path = pre ++ names) (hne : names ≠ [])
    (hnames : ∀ name ∈ names, IsOrdinary name) : isAbsolute path = (pre.head? == some []) := by
  obtain ⟨front, last, rfl⟩ := List.eq_nil_or_concat' names |>.resolve_left hne
  rw [← List.append_assoc] at hpath
  rw [isAbsolute_of_segments hpath]
  cases pre with
  | cons first rest => rfl
  | nil =>
    cases front with
    | nil => rfl
    | cons first rest => simpa using (hnames first (List.mem_cons_self ..)).1

/-- Where two ways down from one directory begin. -/
theorem exists_top_of_segments (hartifact : Path.segments artifact = pre ++ names)
    (hpath : Path.segments path = pre ++ names') (hne : names ≠ []) (hne' : names' ≠ [])
    (hord : ∀ name ∈ names, IsOrdinary name) (hord' : ∀ name ∈ names', IsOrdinary name)
    (hplace : files.locate artifact = .ok place) :
    ∃ top, place = top ++ names ∧
      pre.foldlM files.step (if isAbsolute path then [] else files.current) = .ok top := by
  have hstart := isAbsolute_of_names hartifact hne hord
  rw [← isAbsolute_of_names hpath hne' hord'] at hstart
  obtain ⟨-, -, -, hfold⟩ := locate_eq_ok.mp hplace
  rw [hartifact, List.foldlM_append, bind_eq_ok, hstart] at hfold
  obtain ⟨top, htop, hfold⟩ := hfold
  exact ⟨top, eq_append_of_foldlM hord hfold, htop⟩

/-- Ways down from one directory are aside if the names of the first are not the first names of the
second, and are not the names of the second with one more. -/
theorem aside_of_segments (hartifact : Path.segments artifact = pre ++ names)
    (hpath : Path.segments path = pre ++ names') (hne : names ≠ []) (hne' : names' ≠ [])
    (hord : ∀ name ∈ names, IsOrdinary name) (hord' : ∀ name ∈ names', IsOrdinary name)
    (h : ¬ names <+: names') (hentry : names.dropLast ≠ names') : files.Aside artifact path := by
  have hslash : ∀ {path segments}, Path.segments path = pre ++ segments →
      (∀ name ∈ segments, IsOrdinary name) → ∀ name ∈ segments, '/' ∉ name ∧ name ≠ [] :=
    fun hpath hord name hmem =>
      ⟨notMem_of_mem_segments (hpath ▸ List.mem_append_right _ hmem), (hord name hmem).1⟩
  constructor
  · intro place hplace hdir passed hpassed heq
    obtain ⟨top, rfl, htop⟩ := exists_top_of_segments hartifact hpath hne hne' hord hord' hplace
    rw [waypoints, hpath] at hpassed
    rcases waypointsFrom_append htop hpassed with ⟨modified, hnode⟩ | hpassed
    · -- What has the path of a directory is one, since no way down by names leads to the root.
      have hroot : passed ≠ [] := by
        rintro rfl
        exact Place.path_append_ne_root hne hord heq.symm
      have hplace' : top ++ names ≠ [] := List.append_ne_nil_of_right_ne_nil top hne
      rw [node?_of_ne_nil hroot, heq, ← node?_of_ne_nil hplace'] at hnode
      exact hdir ⟨modified, hnode⟩
    · obtain ⟨front, hfront, rfl⟩ := exists_prefix_of_mem_waypointsFrom hord' hpassed
      have hnames := Place.path_append_inj
        (fun name hmem => hslash hpath hord' name (hfront.subset hmem)) (hslash hartifact hord) heq
      exact h (hnames ▸ hfront)
  · rintro ⟨place, below, hplace, -, hbelow, heq⟩
    obtain ⟨top, rfl, htop⟩ := exists_top_of_segments hartifact hpath hne hne' hord hord' hplace
    obtain ⟨-, -, -, hfold⟩ := locate_eq_ok.mp hbelow
    rw [hpath, List.foldlM_append, htop] at hfold
    rw [eq_append_of_foldlM hord' hfold, List.dropLast_append_of_ne_nil hne] at heq
    exact hentry (Place.path_append_inj (hslash hpath hord')
      (fun name hmem => hslash hartifact hord name (List.dropLast_subset _ hmem)) heq).symm

/-! ## Contents -/

/-- The same files and directories stand at the same places, with the same contents. -/
structure SameContents (new old : Files) : Prop where
  current : new.current = old.current
  content : ∀ place, (new.node? place).map Node.content? = (old.node? place).map Node.content?

theorem SameContents.locate (h : new.SameContents old) (path : String) :
    new.locate path = old.locate path := by
  have hstep : new.step = old.step :=
    funext fun place => funext (step_congr (h.content place))
  unfold Files.locate
  dsimp only
  rw [h.current, hstep]

/-- What is read does not depend on times. -/
theorem SameContents.read (h : new.SameContents old) (path : String) :
    new.read path = old.read path := by
  unfold Files.read Files.get
  rw [h.locate]
  cases old.locate path with
  | error fault => rfl
  | ok place =>
    have hcontent := h.content place
    simp only [ok_bind]
    rcases hnew : new.node? place with _ | ⟨content, time⟩ | time <;>
      rcases hold : old.node? place with _ | ⟨content', time'⟩ | time' <;>
        simp [hnew, hold, Node.content?] at hcontent <;> simp [ok_bind, error_bind, hcontent]

end Files

end Retrofit

import Retrofit.Proofs.Path.Resolution

/-!
# The normal form of a path

**Directories** (`Directory`). A directory is given by the names that lead to it from the root. From
a directory a path leads to another one, segment by segment: a name leads down, `..` leads up and
stays where it is at the root, and an absolute path leads on from the root (`Directory.follow`).

**What a path does** (`Directory.exists_names_follow`). It goes up as far as its normal form says,
and then down by the names of its normal form. Two paths that do the same from the root and from a
directory that is deep enough have the same normal form (`Directory.normalize_eq_of_follow_eq`).

**Theorem (`normalize_canonical`).** The normal form of a path is written without detours
(`IsCanonical`), leads where the path leads, and is shared by exactly those paths that lead where it
leads. Paths that are written without detours are their own normal forms (`normalize_eq_self_iff`).
-/

namespace Retrofit.Path

variable {path other base : String} {place : List Segment} {name segment : Segment}

/-! ## Paths without detours -/

/-- The path is a lone dot or the root, or it is written with steps up, if it is relative, and names
behind them; nothing else stands between its slashes. -/
def IsCanonical (path : String) : Prop :=
  path = "." ∨ path = "/" ∨
    ∃ names, names ≠ [] ∧ IsNormal (isAbsolute path) names ∧
      segments path = (if isAbsolute path then [[]] else []) ++ names

theorem isCanonical_normalize (path : String) : IsCanonical (normalize path) := by
  by_cases h : resolved path = []
  · rw [normalize_of_resolved_eq_nil h]
    cases isAbsolute path
    · exact .inl rfl
    · exact .inr (.inl rfl)
  · refine .inr (.inr ⟨resolved path, h, ?_, ?_⟩)
    · rw [isAbsolute_normalize]
      exact isNormal_resolved path
    · rw [isAbsolute_normalize]
      exact segments_normalize h

theorem IsCanonical.normalize_eq (h : IsCanonical path) : normalize path = path := by
  rcases h with rfl | rfl | ⟨names, hne, hnormal, hsegments⟩
  · decide
  · decide
  · have hresolved : resolved path = names := by
      rw [resolved, hsegments]
      cases habs : isAbsolute path with
      | true =>
        rw [habs] at hnormal
        rw [if_pos rfl, List.singleton_append, resolve, List.foldl_cons, push_nil]
        exact resolve_of_isNormal hnormal
      | false =>
        rw [habs] at hnormal
        exact resolve_of_isNormal hnormal
    apply segments_injective
    rw [segments_normalize (hresolved ▸ hne), hresolved, hsegments]

/-- The paths without detours are the normal forms. -/
theorem normalize_eq_self_iff : normalize path = path ↔ IsCanonical path :=
  ⟨fun h => h ▸ isCanonical_normalize path, IsCanonical.normalize_eq⟩

/-- A normal form tells whether the path is absolute, and what is left of its segments. -/
theorem normalize_eq_iff :
    normalize path = normalize other ↔
      isAbsolute path = isAbsolute other ∧ resolved path = resolved other := by
  refine ⟨fun h => ⟨?_, ?_⟩, fun ⟨habs, hresolved⟩ => normalize_congr habs hresolved⟩
  · rw [← isAbsolute_normalize path, h, isAbsolute_normalize]
  · rw [← resolved_normalize path, h, resolved_normalize]

/-! ## Directories -/

/-- A directory, by the names that lead to it from the root; the innermost one is the first. -/
@[ext]
structure Directory where
  names : List Segment
  valid : ∀ name ∈ names, IsOrdinary name ∧ '/' ∉ name

/-- One step from a place: a name leads down, and `..` leads up unless this is the root. -/
def move (place : List Segment) (segment : Segment) : List Segment :=
  if segment = [] ∨ segment = here then place
  else if segment = above then place.tail
  else segment :: place

theorem mem_move (h : name ∈ move place segment) :
    name ∈ place ∨ IsOrdinary name ∧ name = segment := by
  unfold move at h
  split_ifs at h with hstay habove
  · exact .inl h
  · exact .inl (List.mem_of_mem_tail h)
  · rcases List.mem_cons.mp h with rfl | h
    · rw [not_or] at hstay
      exact .inr ⟨⟨hstay.1, hstay.2, habove⟩, rfl⟩
    · exact .inl h

theorem mem_foldl_move {steps : List Segment} (h : name ∈ steps.foldl move place) :
    name ∈ place ∨ IsOrdinary name ∧ name ∈ steps := by
  induction steps generalizing place with
  | nil => exact .inl h
  | cons step rest ih =>
    rcases ih h with h | ⟨hord, hmem⟩
    · rcases mem_move h with h | ⟨hord, rfl⟩
      · exact .inl h
      · exact .inr ⟨hord, List.mem_cons_self ..⟩
    · exact .inr ⟨hord, List.mem_cons_of_mem step hmem⟩

namespace Directory

/-- The directory that everything is in. -/
def root : Directory := ⟨[], nofun⟩

/-- The directory where a path starts: an absolute one starts at the root. -/
def origin (start : Directory) (path : String) : Directory :=
  if isAbsolute path then root else start

/-- The directory that a path leads to from another one. -/
def follow (start : Directory) (path : String) : Directory where
  names := (segments path).foldl move (start.origin path).names
  valid := by
    intro name hname
    rcases mem_foldl_move hname with hname | ⟨hord, hmem⟩
    · exact (start.origin path).valid name hname
    · exact ⟨hord, notMem_of_mem_segments hmem⟩

/-- A directory so many names below the root. -/
def deep (depth : Nat) : Directory where
  names := List.replicate depth ['d']
  valid := by
    intro name hname
    rw [List.eq_of_mem_replicate hname]
    decide

end Directory

/-! ## What a path does -/

/-- Among names a step is one on the stack of an absolute path. -/
theorem move_eq_push (h : ∀ name ∈ place, IsOrdinary name) :
    move place segment = push true place segment := by
  cases place with
  | nil => rfl
  | cons first rest =>
    have hfirst : first ≠ above := (h first (List.mem_cons_self ..)).2.2
    unfold move push
    simp only [if_neg hfirst, List.tail_cons]

theorem foldl_move_eq (h : ∀ name ∈ place, IsOrdinary name) (steps : List Segment) :
    steps.foldl move place = steps.foldl (push true) place := by
  induction steps generalizing place with
  | nil => rfl
  | cons step rest ih =>
    rw [List.foldl_cons, List.foldl_cons, ← move_eq_push h]
    refine ih fun name hname => ?_
    rcases mem_move hname with hname | ⟨hord, -⟩
    · exact h name hname
    · exact hord

/-- Steps up lead back over the innermost names, and at the root nowhere. -/
theorem foldl_push_ups (ups : Nat) (h : ∀ name ∈ place, IsOrdinary name) :
    (List.replicate ups above).foldl (push true) place = place.drop ups := by
  induction ups generalizing place with
  | zero => rfl
  | succ ups ih =>
    rw [List.replicate_succ, List.foldl_cons]
    cases place with
    | nil => exact (ih h).trans List.drop_nil
    | cons first rest =>
      obtain ⟨hfirst, hrest⟩ := List.forall_mem_cons.mp h
      rw [push_above_cons hfirst, ih hrest, List.drop_succ_cons]

namespace Directory

theorem isOrdinary_of_mem (directory : Directory) (h : name ∈ directory.names) : IsOrdinary name :=
  (directory.valid name h).1

theorem origin_of_isAbsolute (h : isAbsolute path = true) (start : Directory) :
    start.origin path = root :=
  if_pos h

/-- Where a path leads is told by what is left of its segments. -/
theorem names_follow (start : Directory) (path : String) :
    (start.follow path).names = (resolved path).foldl (push true) (start.origin path).names := by
  have hmove := foldl_move_eq (fun _ => (start.origin path).isOrdinary_of_mem) (segments path)
  refine hmove.trans ?_
  cases habs : isAbsolute path with
  | true =>
    have hnormal := resolve_of_isNormal (isNormal_resolved path)
    rw [habs] at hnormal
    rw [origin_of_isAbsolute habs, ← List.reverse_inj]
    exact (congrArg (resolve · (segments path)) habs).symm.trans hnormal.symm
  | false => rw [resolved, habs, foldl_push_resolve]

/-- A normal form leads where the path leads. -/
theorem follow_normalize (start : Directory) (path : String) :
    start.follow (normalize path) = start.follow path := by
  have horigin : start.origin (normalize path) = start.origin path := by
    rw [origin, origin, isAbsolute_normalize]
  ext1
  rw [names_follow, names_follow, resolved_normalize, horigin]

/-- From every directory a path goes up as far as its normal form says, and down by the names of
that. -/
theorem exists_names_follow (path : String) :
    ∃ ups down, resolved path = List.replicate ups above ++ down ∧
      (isAbsolute path = true → ups = 0) ∧
      ∀ start : Directory,
        (start.follow path).names = down.reverse ++ (start.origin path).names.drop ups := by
  obtain ⟨ups, down, hresolved, hdown, hups⟩ := isNormal_resolved path
  refine ⟨ups, down, hresolved, hups, fun start => ?_⟩
  rw [names_follow, hresolved, List.foldl_append,
    foldl_push_ups ups fun _ => (start.origin path).isOrdinary_of_mem,
      foldl_push_of_isOrdinary hdown]

theorem length_names_origin_deep (path : String) (depth : Nat) :
    ((deep depth).origin path).names.length = if isAbsolute path then 0 else depth := by
  unfold origin
  split_ifs
  · rfl
  · exact List.length_replicate

/-- Two paths that lead alike from every directory have the same normal form. -/
theorem normalize_eq_of_follow_eq
    (h : ∀ start : Directory, start.follow path = start.follow other) :
    normalize path = normalize other := by
  obtain ⟨ups, down, hpath, hups, hfollow⟩ := exists_names_follow path
  obtain ⟨ups', down', hother, hups', hfollow'⟩ := exists_names_follow other
  have hnames (start : Directory) : down.reverse ++ (start.origin path).names.drop ups =
      down'.reverse ++ (start.origin other).names.drop ups' := by
    rw [← hfollow, ← hfollow', h]
  -- From the root there is no way up, so only the names are left.
  have hdown : down = down' := by
    have hroot (path : String) : (root.origin path).names = [] := by
      unfold origin
      split_ifs <;> rfl
    have hsame := hnames root
    rw [hroot, hroot, List.drop_nil, List.drop_nil, List.append_nil, List.append_nil] at hsame
    exact List.reverse_inj.mp hsame
  subst hdown
  -- In the depth what stays of the start tells how far a path goes up, and whether it starts there.
  have hlength := congrArg List.length (List.append_cancel_left (hnames (deep (ups + ups' + 1))))
  rw [List.length_drop, List.length_drop, length_names_origin_deep,
    length_names_origin_deep] at hlength
  rw [normalize_eq_iff, hpath, hother]
  cases habs : isAbsolute path <;> cases habs' : isAbsolute other <;>
    simp only [habs, habs', if_true, if_false, Bool.false_eq_true] at hlength hups hups'
  · have hsame : ups = ups' := by omega
    exact ⟨rfl, by rw [hsame]⟩
  · omega
  · omega
  · exact ⟨rfl, by rw [hups trivial, hups' trivial]⟩

end Directory

/-! ## The normal form -/

@[simp] theorem normalize_normalize (path : String) : normalize (normalize path) = normalize path :=
  (isCanonical_normalize path).normalize_eq

@[simp] theorem normalize_join (base rest : String) :
    normalize (join base rest) = join base rest := by
  rw [join_eq_normalize, normalize_normalize]

/-- A base may be taken in normal form. -/
theorem join_normalize (h : base ≠ "") (rest : String) :
    join (normalize base) rest = join base rest := by
  have hbase : base.isEmpty = false := by simpa using h
  have hnormal := isEmpty_normalize base
  rw [join_eq_normalize, join_eq_normalize]
  refine normalize_congr ?_ ?_
  · rw [isAbsolute_beneath hnormal, isAbsolute_beneath hbase, isAbsolute_normalize]
  · rw [resolved_beneath hnormal, resolved_beneath hbase, resolved_normalize, isAbsolute_normalize]

/-- **The normal form.** It has no detours, it leads where the path leads, and two paths share it if
and only if they lead alike from every directory. So it is its own normal form, and a base may be
replaced by it. -/
theorem normalize_canonical (path : String) :
    IsCanonical (normalize path) ∧
      (∀ start : Directory, start.follow (normalize path) = start.follow path) ∧
      (∀ other, normalize path = normalize other ↔
        ∀ start : Directory, start.follow path = start.follow other) ∧
      normalize (normalize path) = normalize path ∧
      (path ≠ "" → ∀ rest, join (normalize path) rest = join path rest) := by
  refine ⟨isCanonical_normalize path, fun start => start.follow_normalize path, fun other => ?_,
    normalize_normalize path, join_normalize⟩
  constructor
  · intro h start
    rw [← start.follow_normalize path, h, start.follow_normalize]
  · exact Directory.normalize_eq_of_follow_eq

/-- A relative path that climbs, with empty segments, dots and detours. -/
theorem normalize_canonical_climbing :
    "..//a/./b/../../../c/" ≠ "" ∧ normalize "..//a/./b/../../../c/" = "../../c" ∧
      IsCanonical "../../c" ∧
      (Directory.deep 1).follow "../../c" = (Directory.deep 1).follow "..//a/./b/../../../c/" ∧
      join "../../c" "../d" = join "..//a/./b/../../../c/" "../d" := by
  have hnormal : normalize "..//a/./b/../../../c/" = "../../c" := by decide
  have hne : "..//a/./b/../../../c/" ≠ "" := by decide
  obtain ⟨hcanonical, hfollow, -, -, hjoin⟩ := normalize_canonical "..//a/./b/../../../c/"
  rw [hnormal] at hcanonical hfollow hjoin
  exact ⟨hne, hnormal, hcanonical, hfollow _, hjoin hne _⟩

end Retrofit.Path

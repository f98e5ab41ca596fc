import Retrofit.Proofs.Path.Containment
import Retrofit.Proofs.Path.NormalForm

/-!
# The way from one directory to another

`Path.relative` leads up from the start to the last directory that it shares with the target, and
then down. Both are seen by their normal forms alone, so nothing is known of where a relative path
begins.

**Theorem (`resolved_join_relative_iff`).** The way leads from the start to the target if and only
if the start does not lead further up than the target (`climbs`). What lies up there has no name in
either text: no text leads down again from a start that is above the target's beginning.

**Theorem (`relative_inverts_join`).** So a start that does not lead up joined with the way is the
target in normal form. The way is empty if and only if there is nowhere to go.

**Parts.** A path in normal form is the path of its directory and its last segment
(`dirname_eq`, `resolved_dirname`).
-/

namespace Retrofit.Path

open Text

variable {absolute : Bool} {start target common front back left : List Segment}
  {segment last : Segment} {base path rest : String}

/-! ## Steps up in front -/

/-- The number of directories that a path leads up from where it begins. -/
def climbs (path : String) : Nat :=
  (resolved path).count above

/-- Steps up stand in front of all names of a normal form. -/
theorem IsNormal.eq_above_cons (h : IsNormal absolute (front ++ back)) (hmem : above ∈ back) :
    ∃ rest, back = above :: rest := by
  obtain ⟨ups, names, heq, hnames, -⟩ := h
  have hnot : above ∉ names := fun hin => (hnames above hin).2.2 rfl
  rcases List.append_eq_append_iff.mp heq with ⟨ups', hups, rfl⟩ | ⟨names', -, rfl⟩
  · cases ups' with
    | nil => exact absurd hmem hnot
    | cons first others =>
      have hfirst : first ∈ List.replicate ups above := hups ▸ by simp
      exact ⟨_, by rw [List.eq_of_mem_replicate hfirst]; rfl⟩
  · exact absurd (List.mem_append_right _ hmem) hnot

/-- What stands in front in a normal form is a normal form. -/
theorem IsNormal.of_append (h : IsNormal absolute (front ++ back)) : IsNormal absolute front := by
  obtain ⟨ups, names, heq, hnames, hups⟩ := h
  rcases List.append_eq_append_iff.mp heq with ⟨ups', hups', -⟩ | ⟨names', rfl, rfl⟩
  · have hfront : front = List.replicate front.length above := by
      refine List.eq_replicate_iff.mpr ⟨rfl, fun segment hmem => ?_⟩
      exact List.eq_of_mem_replicate (hups' ▸ List.mem_append_left ups' hmem)
    refine ⟨front.length, [], by rw [List.append_nil]; exact hfront, List.forall_mem_nil _,
      fun habs => ?_⟩
    have hlength := congrArg List.length hups'
    rw [hups habs, List.length_append, List.replicate_zero, List.length_nil] at hlength
    omega
  · exact ⟨ups, names', rfl, fun segment hmem => hnames segment (List.mem_append_left _ hmem), hups⟩

theorem push_above (absolute : Bool) (last : Segment) (rest : List Segment) :
    push absolute (last :: rest) above = if last = above then above :: last :: rest else rest := by
  simp [push, above, here]

theorem count_above_le_push (stack : List Segment) (segment : Segment) :
    stack.count above ≤ (push false stack segment).count above := by
  rcases isOrdinary_or segment with rfl | rfl | rfl | hord
  · exact Nat.le_of_eq (congrArg (List.count above) (push_nil false stack).symm)
  · exact Nat.le_of_eq (congrArg (List.count above) (push_here false stack).symm)
  · cases stack with
    | nil => exact Nat.zero_le _
    | cons last rest =>
      rw [push_above]
      split_ifs with hlast
      · exact List.count_le_count_cons
      · exact Nat.le_of_eq (List.count_cons_of_ne hlast)
  · rw [push_of_isOrdinary hord]
    exact List.count_le_count_cons

theorem count_above_le_foldl_push (stack segments : List Segment) :
    stack.count above ≤ (segments.foldl (push false) stack).count above := by
  induction segments generalizing stack with
  | nil => exact Nat.le_refl _
  | cons segment rest ih => exact Nat.le_trans (count_above_le_push stack segment) (ih _)

/-- What follows does not take back the steps up of a normal form. -/
theorem count_above_le_resolve_append (h : IsNormal absolute left) (rest : List Segment) :
    left.count above ≤ (resolve absolute (left ++ rest)).count above := by
  cases absolute with
  | true =>
    obtain ⟨ups, names, rfl, hnames, hups⟩ := h
    rw [hups rfl, List.replicate_zero, List.nil_append, count_above hnames]
    exact Nat.zero_le _
  | false =>
    rw [resolve_append, resolve_of_isNormal h, List.count_reverse, ← List.count_reverse (l := left)]
    exact count_above_le_foldl_push left.reverse rest

/-! ## The way -/

/-- The segments from one directory to another: up to the last one that they share, then down. -/
def way (start target : List Segment) : List Segment :=
  List.replicate (start.length - commonLength start target) above ++
    target.drop (commonLength start target)

/-- Two lists part behind what they share. -/
theorem exists_common (start target : List Segment) :
    ∃ common up down, start = common ++ up ∧ target = common ++ down ∧
      common.length = commonLength start target ∧
      ∀ first up' down', up = first :: up' → down ≠ first :: down' := by
  induction start generalizing target with
  | nil => exact ⟨[], [], target, rfl, rfl, by cases target <;> rfl, nofun⟩
  | cons a start ih =>
    cases target with
    | nil => exact ⟨[], a :: start, [], rfl, rfl, rfl, by simp⟩
    | cons b target =>
      by_cases hab : a = b
      · obtain ⟨common, up, down, rfl, rfl, hlength, hpart⟩ := ih target
        exact ⟨a :: common, up, down, rfl, by rw [hab]; rfl,
          by rw [commonLength, if_pos hab, List.length_cons, hlength], hpart⟩
      · refine ⟨[], a :: start, b :: target, rfl, rfl, by rw [commonLength, if_neg hab]; rfl, ?_⟩
        intro first up' down' hup hdown
        exact hab ((List.cons.inj hup).1.trans (List.cons.inj hdown).1.symm)

theorem exists_way (start target : List Segment) :
    ∃ common up down, start = common ++ up ∧ target = common ++ down ∧
      way start target = List.replicate up.length above ++ down ∧
      ∀ first up' down', up = first :: up' → down ≠ first :: down' := by
  obtain ⟨common, up, down, hstart, htarget, hlength, hpart⟩ := exists_common start target
  refine ⟨common, up, down, hstart, htarget, ?_, hpart⟩
  rw [way, ← hlength]
  simp [hstart, htarget]

/-- The way leads from the start to the target, if the start does not lead further up. -/
theorem resolve_way (hstart : IsNormal absolute start) (htarget : IsNormal absolute target)
    (hle : start.count above ≤ target.count above) :
    resolve absolute (start ++ way start target) = target := by
  obtain ⟨common, up, down, rfl, rfl, hway, hpart⟩ := exists_way start target
  rw [List.count_append, List.count_append, Nat.add_le_add_iff_left] at hle
  -- A step up that the target does not share would have to be one of its own.
  have hnone : above ∉ up := by
    intro hmem
    obtain ⟨up', hup⟩ := hstart.eq_above_cons hmem
    have hdown : above ∈ down :=
      List.count_pos_iff.mp (Nat.lt_of_lt_of_le (List.count_pos_iff.mpr hmem) hle)
    obtain ⟨down', hdown⟩ := htarget.eq_above_cons hdown
    exact hpart above up' down' hup hdown
  have hord : ∀ segment ∈ up, IsOrdinary segment := by
    obtain ⟨ups, names, heq, hnames, -⟩ := id hstart
    intro segment hmem
    rcases List.mem_append.mp (heq ▸ List.mem_append_right common hmem) with hin | hin
    · exact absurd (List.eq_of_mem_replicate hin ▸ hmem) hnone
    · exact hnames segment hin
  rw [hway, ← List.append_assoc, ← resolve_resolve_append, resolve_climb common hord,
    resolve_resolve_append, resolve_of_isNormal htarget]

theorem resolve_way_iff (hstart : IsNormal absolute start) (htarget : IsNormal absolute target) :
    resolve absolute (start ++ way start target) = target ↔
      start.count above ≤ target.count above := by
  refine ⟨fun h => ?_, resolve_way hstart htarget⟩
  conv_rhs => rw [← h]
  exact count_above_le_resolve_append hstart _

/-! ## Paths -/

theorem steps_eq_resolved (path : String) : steps path = resolved path := by
  unfold steps
  by_cases h : resolved path = []
  · rw [normalize_of_resolved_eq_nil h, h]
    cases isAbsolute path <;> decide
  · have hkeep : ∀ segment ∈ resolved path, segment ≠ [] ∧ segment ≠ here := by
      obtain ⟨ups, names, heq, hnames, -⟩ := isNormal_resolved path
      intro segment hmem
      rcases List.mem_append.mp (heq ▸ hmem) with hin | hin
      · rw [List.eq_of_mem_replicate hin]
        decide
      · exact ⟨(hnames segment hin).1, (hnames segment hin).2.1⟩
    rw [segments_normalize h, List.filter_append,
      List.filter_eq_self.mpr fun segment hmem => decide_eq_true (hkeep segment hmem)]
    cases isAbsolute path <;> simp

theorem relative_eq_ofSegments_way (base target : String) :
    relative base target = ofSegments (way (resolved base) (resolved target)) := by
  unfold relative way
  rw [steps_eq_resolved, steps_eq_resolved]

/-- Segments that are written down and read again lead the same way, also if there are none. -/
theorem resolve_append_segments_ofSegments (front : List Segment)
    (h : ∀ segment ∈ left, '/' ∉ segment) :
    resolve absolute (front ++ segments (ofSegments left)) = resolve absolute (front ++ left) := by
  by_cases hne : left = []
  · subst hne
    have hempty : segments (ofSegments []) = [[]] := rfl
    rw [hempty, resolve_concat, push_nil, List.reverse_reverse, List.append_nil]
  · rw [segments_ofSegments hne h]

theorem mem_way (h : segment ∈ way (resolved base) (resolved path)) :
    '/' ∉ segment ∧ segment ≠ [] := by
  rcases List.mem_append.mp h with hmem | hmem
  · rw [List.eq_of_mem_replicate hmem]
    decide
  · have hin := List.mem_of_mem_drop hmem
    exact ⟨notMem_of_mem_resolved hin, (isNormal_resolved path).ne_nil hin⟩

/-- A joined path begins where its base does and leads on from there. -/
theorem resolved_join (h : base.isEmpty = false) (rest : String) :
    isAbsolute (join base rest) = isAbsolute base ∧
      resolved (join base rest) = resolve (isAbsolute base) (resolved base ++ segments rest) := by
  rw [join_eq_normalize, isAbsolute_normalize, resolved_normalize]
  exact ⟨isAbsolute_beneath h rest, resolved_beneath h rest⟩

theorem resolved_join_relative (base target : String) :
    isAbsolute (join base (relative base target)) = isAbsolute base ∧
      resolved (join base (relative base target)) =
        resolve (isAbsolute base) (resolved base ++ way (resolved base) (resolved target)) := by
  have hway : ∀ segment ∈ way (resolved base) (resolved target), '/' ∉ segment ∧ segment ≠ [] :=
    fun segment => mem_way
  have hslash : ∀ segment ∈ way (resolved base) (resolved target), '/' ∉ segment :=
    fun segment hmem => (hway segment hmem).1
  rw [relative_eq_ofSegments_way]
  cases hbase : base.isEmpty with
  | false =>
    obtain ⟨habs, hresolved⟩ :=
      resolved_join hbase (ofSegments (way (resolved base) (resolved target)))
    exact ⟨habs, hresolved.trans (resolve_append_segments_ofSegments _ hslash)⟩
  | true =>
    have hresolved : resolved base = [] ∧ isAbsolute base = false := by
      rw [String.isEmpty_iff] at hbase
      subst hbase
      exact ⟨by decide, rfl⟩
    have habs := isAbsolute_ofSegments hway
    rw [join_eq_normalize, isAbsolute_normalize, resolved_normalize, beneath, if_pos hbase]
    refine ⟨habs.trans hresolved.2.symm, ?_⟩
    rw [resolved.eq_def (ofSegments _), habs, hresolved.2,
      ← resolve_append_segments_ofSegments _ hslash]
    rw [hresolved.1, List.nil_append]

/-- **The way back.** From a start that begins where the target does, the way leads to the target if
and only if the start does not lead further up. -/
theorem resolved_join_relative_iff {target : String} (habs : isAbsolute target = isAbsolute base) :
    resolved (join base (relative base target)) = resolved target ↔
      climbs base ≤ climbs target := by
  rw [(resolved_join_relative base target).2]
  exact resolve_way_iff (isNormal_resolved base) (habs ▸ isNormal_resolved target)

/-- Nothing is on the way if and only if it leads back to the start. -/
theorem way_eq_nil_iff : way start target = [] ↔ start = target := by
  obtain ⟨common, up, down, rfl, rfl, hway, hpart⟩ := exists_way start target
  rw [hway, List.append_eq_nil_iff, List.replicate_eq_nil_iff, List.length_eq_zero_iff,
    List.append_cancel_left_eq]
  constructor
  · rintro ⟨rfl, rfl⟩
    rfl
  · rintro rfl
    cases up with
    | nil => exact ⟨rfl, rfl⟩
    | cons first up => exact absurd rfl (hpart first up up rfl)

theorem relative_eq_empty_iff {target : String} :
    relative base target = "" ↔ resolved base = resolved target := by
  rw [relative_eq_ofSegments_way, ← way_eq_nil_iff]
  refine ⟨fun h => ?_, fun h => by rw [h]; rfl⟩
  by_contra hne
  have hsegments := segments_ofSegments hne fun segment hmem => (mem_way hmem).1
  have hmem : [] ∈ segments "" := List.mem_singleton_self []
  rw [← h, hsegments] at hmem
  exact (mem_way hmem).2 rfl

/-- A path whose normal form does not begin with a step up has none. -/
theorem climbs_eq_zero (h : (segments (normalize path)).head? ≠ some above) : climbs path = 0 := by
  obtain ⟨ups, names, hresolved, hnames, hups⟩ := isNormal_resolved path
  have hzero : ups = 0 := by
    cases ups with
    | zero => rfl
    | succ ups =>
      have hrelative : isAbsolute path = false :=
        Bool.eq_false_iff.mpr fun habs => Nat.succ_ne_zero ups (hups habs)
      rw [List.replicate_succ, List.cons_append] at hresolved
      rw [segments_normalize (hresolved ▸ List.cons_ne_nil _ _), hrelative, hresolved] at h
      exact absurd rfl h
  rw [climbs, hresolved, hzero]
  exact count_above hnames

/-- **The way is the inverse of joining.** From a start that begins where the target does and does
not lead up, the way leads to the target, and it is empty if and only if the two are the same. -/
theorem relative_inverts_join {target : String} (habs : isAbsolute base = isAbsolute target)
    (hbase : (segments (normalize base)).head? ≠ some above) :
    join base (relative base target) = normalize target ∧
      (relative base target = "" ↔ normalize base = normalize target) := by
  refine ⟨?_, ?_⟩
  · have hle : climbs base ≤ climbs target := by
      rw [climbs_eq_zero hbase]
      exact Nat.zero_le _
    rw [← normalize_join, normalize_eq_iff]
    exact ⟨(resolved_join_relative base target).1.trans habs,
      (resolved_join_relative_iff habs.symm).mpr hle⟩
  · rw [relative_eq_empty_iff, normalize_eq_iff]
    exact (and_iff_right habs).symm

/-- A start with a detour, and a target that climbs. -/
theorem relative_inverts_join_climbing :
    isAbsolute "a/./b/../c" = isAbsolute "../d" ∧
      (segments (normalize "a/./b/../c")).head? ≠ some above ∧
      relative "a/./b/../c" "../d" = "../../../d" ∧
      join "a/./b/../c" (relative "a/./b/../c" "../d") = normalize "../d" ∧
      normalize "a/./b/../c" ≠ normalize "../d" := by
  have habs : isAbsolute "a/./b/../c" = isAbsolute "../d" := by decide
  have hbase : (segments (normalize "a/./b/../c")).head? ≠ some above := by decide
  have hway : relative "a/./b/../c" "../d" = "../../../d" := by decide
  obtain ⟨hjoin, hempty⟩ := relative_inverts_join habs hbase
  exact ⟨habs, hbase, hway, hjoin, fun hsame => absurd (hempty.mpr hsame) (by rw [hway]; decide)⟩

/-! ## Directories -/

/-- The directory of a path, by the segments of its normal form. -/
theorem dirname_eq (h : segments (normalize path) = front ++ [last]) :
    dirname path = if front = [] then "." else if front = [[]] then "/" else ofSegments front := by
  have htext := toList_eq_joinWith (normalize path)
  have hlast : '/' ∉ last := notMem_of_mem_segments (h ▸ List.mem_concat_self ..)
  rw [h, joinWith_concat] at htext
  unfold dirname
  split_ifs at htext ⊢ with hnone hroot
  · simp only [htext, lastIndexOf?_eq_none.mpr hlast]
  · subst hroot
    have htext : (normalize path).toList = [] ++ '/' :: last := htext
    simp only [htext, lastIndexOf?_append_cons hlast, List.length_nil]
  · rw [List.append_assoc, List.singleton_append] at htext
    -- Segments that are joined to nothing are a single empty one.
    obtain ⟨n, hn⟩ : ∃ n, (joinWith ['/'] front).length = n + 1 := by
      refine Nat.exists_eq_add_one_of_ne_zero fun hzero => hroot ?_
      have hpieces := pieces_joinWith hnone fun segment hmem =>
        notMem_of_mem_segments (h ▸ List.mem_append_left [last] hmem)
      rw [← hpieces, List.length_eq_zero_iff.mp hzero]
      rfl
    simp only [htext, lastIndexOf?_append_cons hlast, hn]
    rw [← hn, List.take_left']
    · rfl
    · rfl

/-- The directory of a path is where its segments in front of the last one lead. -/
theorem resolved_dirname (h : resolved path = front ++ [last]) :
    isAbsolute (dirname path) = isAbsolute path ∧ resolved (dirname path) = front := by
  have hsegments := segments_normalize (h ▸ List.concat_ne_nil _ _)
  have hnormal := isNormal_resolved path
  rw [h, ← List.append_assoc] at hsegments
  have hfront : ∀ segment ∈ front, '/' ∉ segment ∧ segment ≠ [] := fun segment hmem =>
    have hin : segment ∈ resolved path := h ▸ List.mem_append_left _ hmem
    ⟨notMem_of_mem_resolved hin, hnormal.ne_nil hin⟩
  have hresolve : resolve (isAbsolute path) front = front := by
    rw [h] at hnormal
    exact resolve_of_isNormal hnormal.of_append
  rw [dirname_eq hsegments]
  cases habs : isAbsolute path with
  | true =>
    rw [if_pos rfl, List.singleton_append, if_neg (List.cons_ne_nil _ _)]
    rcases front.eq_nil_or_concat' with rfl | ⟨init, name, rfl⟩
    · exact ⟨rfl, by decide⟩
    · have hslash : ∀ segment ∈ [] :: (init ++ [name]), '/' ∉ segment :=
        List.forall_mem_cons.mpr ⟨List.not_mem_nil, fun segment hmem => (hfront segment hmem).1⟩
      have hwritten := segments_ofSegments (List.cons_ne_nil _ _) hslash
      have hroot : isAbsolute (ofSegments ([] :: (init ++ [name]))) = true := by
        rw [← List.cons_append] at hwritten ⊢
        exact isAbsolute_of_segments hwritten
      rw [if_neg (by simp)]
      refine ⟨hroot, ?_⟩
      rw [resolved, hroot, hwritten, resolve, List.foldl_cons, push_nil]
      exact habs ▸ hresolve
  | false =>
    rw [if_neg Bool.false_ne_true, List.nil_append]
    split_ifs with hnone hempty
    · exact ⟨rfl, by rw [hnone]; decide⟩
    · subst hempty
      exact absurd rfl (hfront [] (List.mem_singleton_self _)).2
    · have hrelative := isAbsolute_ofSegments hfront
      refine ⟨hrelative, ?_⟩
      rw [resolved, hrelative, segments_ofSegments hnone fun segment hmem =>
        (hfront segment hmem).1]
      exact habs ▸ hresolve

end Retrofit.Path

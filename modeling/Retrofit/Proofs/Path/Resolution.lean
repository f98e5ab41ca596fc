import Mathlib.Data.List.Basic
import Mathlib.Data.List.Induction
import Mathlib.Tactic.SplitIfs
import Retrofit.Proofs.Path.Artifact

/-!
# Where a path leads by its text

**Resolution.** What is left of the segments of a path without detours (`resolved`): steps up, then
ordinary names, and from the root no steps up (`isNormal_resolve`).

**Resolving in parts.** What has been resolved does not have to be looked at again, neither in front
(`resolve_resolve_append`) nor behind (`resolve_append_resolve`). So a normal form leads where the
path leads (`resolved_normalize`), also from a directory (`resolved_under_congr`), and a path
written behind another one leads on from where that leads (`resolved_under_beneath`).
-/

namespace Retrofit.Path

open Text

variable {absolute : Bool} {stack left names : List Segment} {segment : Segment}
  {path base rest root : String}

/-! ## Steps -/

@[simp] theorem push_nil (absolute : Bool) (stack : List Segment) :
    push absolute stack [] = stack := by
  simp [push]

@[simp] theorem push_here (absolute : Bool) (stack : List Segment) :
    push absolute stack here = stack := by
  simp [push]

theorem push_of_isOrdinary (h : IsOrdinary segment) :
    push absolute stack segment = segment :: stack := by
  obtain ⟨hempty, hhere, habove⟩ := h
  simp [push, hempty, hhere, habove]

theorem push_above_cons (h : IsOrdinary segment) :
    push absolute (segment :: stack) above = stack := by
  simp [push, above, here, show segment ≠ ['.', '.'] from h.2.2]

/-- A step up from steps up is one more of them, and from the root it leads nowhere. -/
theorem push_above_replicate (absolute : Bool) (ups : Nat) (h : absolute = true → ups = 0) :
    push absolute (List.replicate ups above) above =
      List.replicate (if absolute then 0 else ups + 1) above := by
  cases ups with
  | zero => cases absolute <;> simp [push, above, here]
  | succ ups =>
    cases absolute with
    | true => simp at h
    | false => simp [push, above, here, List.replicate_succ]

theorem isOrdinary_or (segment : Segment) :
    segment = [] ∨ segment = here ∨ segment = above ∨ IsOrdinary segment := by
  unfold IsOrdinary
  by_cases hempty : segment = [] <;> by_cases hhere : segment = here <;>
    by_cases habove : segment = above <;> simp [hempty, hhere, habove]

theorem foldl_push_of_isOrdinary (h : ∀ segment ∈ names, IsOrdinary segment) :
    names.foldl (push absolute) stack = names.reverse ++ stack := by
  induction names generalizing stack with
  | nil => rfl
  | cons name rest ih =>
    obtain ⟨hname, hrest⟩ := List.forall_mem_cons.mp h
    rw [List.foldl_cons, push_of_isOrdinary hname, ih hrest, List.reverse_cons, List.append_assoc,
      List.singleton_append]

/-! ## Normal forms -/

/-- Steps up in front of ordinary names; from the root only names. -/
def IsNormal (absolute : Bool) (segments : List Segment) : Prop :=
  ∃ ups names, segments = List.replicate ups above ++ names ∧
    (∀ segment ∈ names, IsOrdinary segment) ∧
    (absolute = true → ups = 0)

theorem resolve_concat (absolute : Bool) (segments : List Segment) (segment : Segment) :
    resolve absolute (segments ++ [segment]) =
      (push absolute (resolve absolute segments).reverse segment).reverse := by
  simp [resolve]

theorem IsNormal.push (h : IsNormal absolute left) (segment : Segment) :
    IsNormal absolute (Path.push absolute left.reverse segment).reverse := by
  obtain ⟨ups, names, rfl, hnames, hups⟩ := h
  rcases isOrdinary_or segment with rfl | rfl | rfl | hord
  · rw [push_nil, List.reverse_reverse]
    exact ⟨ups, names, rfl, hnames, hups⟩
  · rw [push_here, List.reverse_reverse]
    exact ⟨ups, names, rfl, hnames, hups⟩
  · rcases names.eq_nil_or_concat' with rfl | ⟨front, last, rfl⟩
    · rw [List.append_nil, List.reverse_replicate, push_above_replicate absolute ups hups,
        List.reverse_replicate]
      exact ⟨_, [], (List.append_nil _).symm, nofun, fun habs => by simp [habs]⟩
    · have hlast : IsOrdinary last :=
        hnames last (List.mem_append_right _ (List.mem_singleton_self _))
      rw [← List.append_assoc, List.reverse_append, List.reverse_singleton, List.singleton_append,
        push_above_cons hlast, List.reverse_reverse]
      exact ⟨ups, front, rfl, fun segment h => hnames segment (List.mem_append_left _ h), hups⟩
  · rw [push_of_isOrdinary hord, List.reverse_cons, List.reverse_reverse, List.append_assoc]
    refine ⟨ups, names ++ [segment], rfl, fun other h => ?_, hups⟩
    rcases List.mem_append.mp h with h | h
    · exact hnames other h
    · exact List.mem_singleton.mp h ▸ hord

theorem isNormal_resolve (absolute : Bool) (segments : List Segment) :
    IsNormal absolute (resolve absolute segments) := by
  induction segments using List.reverseRecOn with
  | nil => exact ⟨0, [], rfl, nofun, fun _ => rfl⟩
  | append_singleton segments segment ih =>
    rw [resolve_concat]
    exact ih.push segment

theorem foldl_push_replicate (ups : Nat) (h : absolute = true → ups = 0) :
    (List.replicate ups above).foldl (push absolute) [] = List.replicate ups above := by
  induction ups with
  | zero => rfl
  | succ ups ih =>
    cases absolute with
    | true => simp at h
    | false =>
      rw [List.replicate_succ', List.foldl_append, ih nofun, List.foldl_cons, List.foldl_nil,
        push_above_replicate false ups nofun]
      exact List.replicate_succ'

/-- A normal form has no detours. -/
theorem resolve_of_isNormal (h : IsNormal absolute left) : resolve absolute left = left := by
  obtain ⟨ups, names, rfl, hnames, hups⟩ := h
  rw [resolve, List.foldl_append, foldl_push_replicate ups hups, foldl_push_of_isOrdinary hnames,
    List.reverse_append, List.reverse_reverse, List.reverse_replicate]

/-! ## Resolving in parts -/

/-- It does not matter from where the detours of a relative path are taken out. -/
theorem foldl_push_resolve (absolute : Bool) (stack segments : List Segment) :
    (resolve false segments).foldl (push absolute) stack =
      segments.foldl (push absolute) stack := by
  induction segments using List.reverseRecOn with
  | nil => rfl
  | append_singleton segments segment ih =>
    rw [resolve_concat, List.foldl_append, ← ih, List.foldl_cons, List.foldl_nil]
    obtain ⟨ups, names, hnormal, hnames, -⟩ := isNormal_resolve false segments
    rw [hnormal]
    rcases isOrdinary_or segment with rfl | rfl | rfl | hord
    · rw [push_nil, push_nil, List.reverse_reverse]
    · rw [push_here, push_here, List.reverse_reverse]
    · rcases names.eq_nil_or_concat' with rfl | ⟨front, last, rfl⟩
      · rw [List.append_nil, List.reverse_replicate, push_above_replicate false ups nofun,
          List.reverse_replicate]
        simp [List.replicate_succ', List.foldl_append]
      · have hlast : IsOrdinary last :=
          hnames last (List.mem_append_right _ (List.mem_singleton_self _))
        rw [← List.append_assoc, List.reverse_append, List.reverse_singleton, List.singleton_append,
          push_above_cons hlast, List.reverse_reverse]
        simp only [List.foldl_append, List.foldl_cons, List.foldl_nil, push_of_isOrdinary hlast,
          push_above_cons hlast]
    · rw [push_of_isOrdinary hord, List.reverse_cons, List.reverse_reverse, List.foldl_append,
        List.foldl_cons, List.foldl_nil]

theorem resolve_append (absolute : Bool) (front back : List Segment) :
    resolve absolute (front ++ back) =
      (back.foldl (push absolute) (resolve absolute front).reverse).reverse := by
  simp [resolve]

theorem resolve_append_resolve (absolute : Bool) (front back : List Segment) :
    resolve absolute (front ++ resolve false back) = resolve absolute (front ++ back) := by
  rw [resolve_append, resolve_append, foldl_push_resolve]

theorem resolve_resolve_append (absolute : Bool) (front back : List Segment) :
    resolve absolute (resolve absolute front ++ back) = resolve absolute (front ++ back) := by
  rw [resolve_append, resolve_append, resolve_of_isNormal (isNormal_resolve absolute front)]

theorem resolve_append_of_isOrdinary (front : List Segment)
    (h : ∀ segment ∈ names, IsOrdinary segment) :
    resolve absolute (front ++ names) = resolve absolute front ++ names := by
  rw [resolve_append, foldl_push_of_isOrdinary h, List.reverse_append, List.reverse_reverse,
    List.reverse_reverse]

/-- The steps up and the names that a file name tells, without detours. -/
def trail (file : String) : List Segment :=
  resolve false (segments file)

theorem resolve_append_trail (absolute : Bool) (front : List Segment) (file : String) :
    resolve absolute (front ++ trail file) = resolve absolute (front ++ segments file) :=
  resolve_append_resolve absolute front (segments file)

/-! ## What is left -/

theorem mem_push {pushed : Segment} (h : segment ∈ push absolute stack pushed) :
    segment ∈ stack ∨ segment = pushed := by
  rcases isOrdinary_or pushed with rfl | rfl | rfl | hord
  · exact .inl (push_nil absolute stack ▸ h)
  · exact .inl (push_here absolute stack ▸ h)
  · cases stack with
    | nil => cases absolute <;> simp_all [push, above, here]
    | cons last rest =>
      by_cases hlast : last = above <;> simp_all [push, above, here]
  · rw [push_of_isOrdinary hord] at h
    exact (List.mem_cons.mp h).symm

theorem mem_resolve (h : segment ∈ resolve absolute left) : segment ∈ left := by
  induction left using List.reverseRecOn with
  | nil => cases h
  | append_singleton front last ih =>
    rw [resolve_concat, List.mem_reverse] at h
    rcases mem_push h with h | rfl
    · exact List.mem_append_left _ (ih (List.mem_reverse.mp h))
    · exact List.mem_concat_self ..

theorem IsNormal.ne_nil (h : IsNormal absolute left) (hmem : segment ∈ left) : segment ≠ [] := by
  obtain ⟨ups, names, rfl, hnames, -⟩ := h
  rcases List.mem_append.mp hmem with hmem | hmem
  · rw [List.eq_of_mem_replicate hmem]
    exact List.cons_ne_nil _ _
  · exact (hnames segment hmem).1

/-! ## Paths in normal form -/

/-- The segments of a path without detours. -/
def resolved (path : String) : List Segment :=
  resolve (isAbsolute path) (segments path)

theorem isNormal_resolved (path : String) : IsNormal (isAbsolute path) (resolved path) :=
  isNormal_resolve ..

theorem notMem_of_mem_resolved (h : segment ∈ resolved path) : '/' ∉ segment :=
  notMem_of_mem_segments (mem_resolve h)

theorem segments_ofSegments (hne : left ≠ []) (h : ∀ segment ∈ left, '/' ∉ segment) :
    segments (ofSegments left) = left := by
  rw [segments, ofSegments, String.toList_ofList]
  exact pieces_joinWith hne h

theorem isAbsolute_ofSegments (h : ∀ segment ∈ left, '/' ∉ segment ∧ segment ≠ []) :
    isAbsolute (ofSegments left) = false := by
  rcases left.eq_nil_or_concat' with rfl | ⟨front, last, rfl⟩
  · rfl
  · rw [isAbsolute_of_segments
      (segments_ofSegments (List.concat_ne_nil _ _) fun segment hmem => (h segment hmem).1)]
    cases front with
    | nil => rfl
    | cons first others => simpa using (h first (by simp)).2

theorem segments_root_append (path : String) : segments ("/" ++ path) = [] :: segments path := by
  rw [segments, String.toList_append]
  exact pieces_append_cons '/' [] path.toList

theorem isAbsolute_root_append (path : String) : isAbsolute ("/" ++ path) = true := by
  simp [isAbsolute]

theorem normalize_eq (path : String) :
    normalize path =
      if isAbsolute path then "/" ++ ofSegments (resolved path)
      else if (ofSegments (resolved path)).isEmpty then "." else ofSegments (resolved path) :=
  rfl

theorem isEmpty_ofSegments_resolved (h : resolved path ≠ []) :
    (ofSegments (resolved path)).isEmpty = false := by
  rw [Bool.eq_false_iff, ne_eq, String.isEmpty_iff]
  intro hempty
  have hsegments := segments_ofSegments h fun _ => notMem_of_mem_resolved
  rw [hempty] at hsegments
  have hmem : [] ∈ resolved path := hsegments ▸ List.mem_singleton_self _
  exact (isNormal_resolved path).ne_nil hmem rfl

theorem normalize_of_resolved_eq_nil (h : resolved path = []) :
    normalize path = if isAbsolute path then "/" else "." := by
  rw [normalize_eq, h]
  rfl

/-- The segments of a normal form that leads away from the start. -/
theorem segments_normalize (h : resolved path ≠ []) :
    segments (normalize path) = (if isAbsolute path then [[]] else []) ++ resolved path := by
  have hsegments := segments_ofSegments h fun _ => notMem_of_mem_resolved
  rw [normalize_eq, isEmpty_ofSegments_resolved h]
  cases isAbsolute path with
  | true => simp [segments_root_append, hsegments]
  | false => simp [hsegments]

@[simp] theorem isAbsolute_normalize (path : String) :
    isAbsolute (normalize path) = isAbsolute path := by
  by_cases h : resolved path = []
  · rw [normalize_of_resolved_eq_nil h]
    cases isAbsolute path <;> rfl
  · have hsegments := segments_normalize h
    cases habs : isAbsolute path with
    | true =>
      rw [normalize_eq, habs, if_pos rfl]
      exact isAbsolute_root_append _
    | false =>
      obtain ⟨front, last, hresolved⟩ := (resolved path).eq_nil_or_concat'.resolve_left h
      rw [habs, if_neg Bool.false_ne_true, List.nil_append, hresolved] at hsegments
      rw [isAbsolute_of_segments hsegments]
      cases front with
      | nil => rfl
      | cons first rest =>
        have hmem : first ∈ resolved path := hresolved ▸ List.mem_cons_self ..
        simpa using (isNormal_resolved path).ne_nil hmem

/-- A normal form leads where the path leads. -/
@[simp] theorem resolved_normalize (path : String) : resolved (normalize path) = resolved path := by
  by_cases h : resolved path = []
  · rw [normalize_of_resolved_eq_nil h, h]
    cases isAbsolute path <;> decide
  · have hnormal := resolve_of_isNormal (isNormal_resolved path)
    rw [resolved, isAbsolute_normalize, segments_normalize h]
    cases habs : isAbsolute path with
    | true =>
      rw [habs] at hnormal
      rw [if_pos rfl, List.singleton_append, resolve, List.foldl_cons, push_nil]
      exact hnormal
    | false =>
      rw [habs] at hnormal
      exact hnormal

theorem normalize_congr {other : String} (habs : isAbsolute path = isAbsolute other)
    (h : resolved path = resolved other) : normalize path = normalize other := by
  rw [normalize_eq, normalize_eq, habs, h]

/-! ## Joined paths -/

/-- `rest` written behind `base`. -/
def beneath (base rest : String) : String :=
  if base.isEmpty then rest else base ++ "/" ++ rest

theorem isAbsolute_append (h : base.isEmpty = false) (rest : String) :
    isAbsolute (base ++ rest) = isAbsolute base := by
  have hne : base.toList ≠ [] := by
    simpa using h
  simp [isAbsolute, List.head?_append_of_ne_nil _ hne]

theorem segments_append_slash (base rest : String) :
    segments (base ++ "/" ++ rest) = segments base ++ segments rest := by
  simp [segments, pieces_append_cons]

theorem isAbsolute_beneath (h : base.isEmpty = false) (rest : String) :
    isAbsolute (beneath base rest) = isAbsolute base := by
  rw [beneath, if_neg (by simp [h]), String.append_assoc, isAbsolute_append h]

theorem segments_beneath (h : base.isEmpty = false) (rest : String) :
    segments (beneath base rest) = segments base ++ segments rest := by
  rw [beneath, if_neg (by simp [h]), segments_append_slash]

theorem resolved_beneath (h : base.isEmpty = false) (rest : String) :
    resolved (beneath base rest) = resolve (isAbsolute base) (resolved base ++ segments rest) := by
  rw [resolved, isAbsolute_beneath h, segments_beneath h, resolved, resolve_resolve_append]

/-- To join two paths is to write one behind the other in normal form. -/
theorem join_eq_normalize (base rest : String) :
    join base rest = normalize (beneath base rest) := by
  unfold join
  split_ifs with hbase hrest hrest
  · rw [String.isEmpty_iff] at hbase hrest
    rw [hbase, hrest]
    decide
  · rw [beneath, if_pos hbase]
  · rw [Bool.not_eq_true] at hbase
    rw [String.isEmpty_iff] at hrest
    refine normalize_congr (isAbsolute_beneath hbase rest).symm ?_
    have hempty : segments rest = [[]] := by rw [hrest]; rfl
    rw [resolved_beneath hbase, hempty, resolve_concat, push_nil, List.reverse_reverse,
      resolve_of_isNormal (isNormal_resolved base)]
  · rw [beneath, if_neg hbase]

theorem isEmpty_normalize (path : String) : (normalize path).isEmpty = false := by
  by_cases h : resolved path = []
  · rw [normalize_of_resolved_eq_nil h]
    cases isAbsolute path <;> rfl
  · rw [normalize_eq, isEmpty_ofSegments_resolved h]
    cases isAbsolute path with
    | true => simp
    | false => simpa using isEmpty_ofSegments_resolved h

/-! ## Paths taken from a directory -/

theorem under_of_isAbsolute (h : isAbsolute path = true) (root : String) : under root path = path :=
  if_pos h

theorem isAbsolute_under (h : isAbsolute path = false) (root : String) :
    isAbsolute (under root path) = isAbsolute root := by
  unfold under
  rw [if_neg (by simp [h])]
  cases hroot : root.isEmpty with
  | true =>
    rw [String.isEmpty_iff] at hroot
    have hempty : isAbsolute "" = false := rfl
    simp [hroot, h, hempty]
  | false =>
    split_ifs
    · exact isAbsolute_append hroot _
    · rw [String.append_assoc, isAbsolute_append hroot]

/-- What a relative path leads to depends on where its segments lead, one after the other. -/
theorem resolved_under (root : String) :
    ∃ front, ∀ path, isAbsolute path = false →
      resolved (under root path) = resolve (isAbsolute root) (front ++ segments path) := by
  obtain ⟨front, hfront⟩ := segments_under root
  exact ⟨front, fun path h => by rw [resolved, isAbsolute_under h, hfront path h]⟩

theorem isAbsolute_under_congr {other : String} (h : isAbsolute path = isAbsolute other)
    (root : String) : isAbsolute (under root path) = isAbsolute (under root other) := by
  cases habs : isAbsolute path with
  | true => rw [under_of_isAbsolute habs, under_of_isAbsolute (h ▸ habs), h]
  | false => rw [isAbsolute_under habs, isAbsolute_under (h ▸ habs)]

/-- Two paths that lead to the same place lead to the same place from a directory. -/
theorem resolved_under_congr {other : String} (habs : isAbsolute path = isAbsolute other)
    (h : resolved path = resolved other) (root : String) :
    resolved (under root path) = resolved (under root other) := by
  cases hpath : isAbsolute path with
  | true => rw [under_of_isAbsolute hpath, under_of_isAbsolute (habs ▸ hpath), h]
  | false =>
    have hother : isAbsolute other = false := habs ▸ hpath
    obtain ⟨front, hfront⟩ := resolved_under root
    rw [resolved, hpath, resolved, hother] at h
    rw [hfront path hpath, hfront other hother, ← resolve_append_resolve, h, resolve_append_resolve]

/-- A path written behind another one leads on from where that leads. -/
theorem resolved_under_beneath (h : base.isEmpty = false) (root rest : String) :
    resolved (under root (beneath base rest)) =
      resolve (isAbsolute (under root base)) (resolved (under root base) ++ segments rest) := by
  have hbeneath := isAbsolute_beneath h rest
  cases hbase : isAbsolute base with
  | true =>
    rw [under_of_isAbsolute hbase, under_of_isAbsolute (hbeneath.trans hbase), hbase,
      resolved_beneath h, hbase]
  | false =>
    obtain ⟨front, hfront⟩ := resolved_under root
    rw [hfront _ (hbeneath.trans hbase), hfront base hbase, isAbsolute_under hbase,
      resolve_resolve_append, segments_beneath h, List.append_assoc]

end Retrofit.Path

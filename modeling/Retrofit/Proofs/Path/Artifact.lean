import Mathlib.Tactic.SplitIfs
import Retrofit.Path.Basic

/-!
# Names of artifacts

**Segments.** A path is absolute if an empty segment stands in front of others
(`isAbsolute_of_segments`). Taking a relative path from a directory puts segments in front that do
not depend on the path (`segments_under`).

**Artifacts.** A marker without a slash changes the last segment of a path only: what is inserted
is a dot and the marker, and not at the start of a name (`segments_patchedName`). So the last
segment of an artifact is another one, and it is ordinary if the file's is
(`IsOrdinary.mark`).

**Telling artifacts apart.** The marked form of a name tells the name: where it went in front of an
extension there is a dot more than where it went behind a name without one (`marked_injective`). So
an artifact tells its file (`patchedName_injective`).
-/

namespace Retrofit.Path

open Text

variable {path root marker : String} {pre : List Segment} {a b segment : Segment}

/-- A segment that names something in its directory. -/
def IsOrdinary (segment : Segment) : Prop :=
  segment ≠ [] ∧ segment ≠ here ∧ segment ≠ above

instance : DecidablePred IsOrdinary := fun segment =>
  inferInstanceAs (Decidable (segment ≠ [] ∧ segment ≠ here ∧ segment ≠ above))

/-! ## Segments -/

theorem segments_eq_concat (path : String) : ∃ pre last, segments path = pre ++ [last] :=
  ⟨_, _, (List.dropLast_concat_getLast (pieces_ne_nil '/' path.toList)).symm⟩

theorem notMem_of_mem_segments (h : segment ∈ segments path) : '/' ∉ segment :=
  notMem_of_mem_pieces h

theorem toList_eq_joinWith (path : String) : path.toList = joinWith ['/'] (segments path) :=
  (joinWith_pieces '/' path.toList).symm

/-- A path is given by its segments. -/
theorem segments_injective : Function.Injective segments := by
  intro path other h
  rw [← String.toList_inj, toList_eq_joinWith, toList_eq_joinWith, h]

theorem isAbsolute_of_segments (h : segments path = pre ++ [segment]) :
    isAbsolute path = (pre.head? == some []) := by
  unfold isAbsolute
  rw [segments] at h
  cases hcs : path.toList with
  | nil =>
    rw [hcs, pieces] at h
    cases pre with
    | nil => rfl
    | cons q qs => simp at h
  | cons c cs =>
    rw [hcs, pieces] at h
    split_ifs at h with hc
    · cases pre with
      | nil => exact absurd (List.cons.inj h).2 (pieces_ne_nil '/' cs)
      | cons q qs => simp [hc, ← (List.cons.inj h).1]
    · cases pre with
      | nil => simp [hc]
      | cons q qs =>
        cases hp : pieces '/' cs with
        | nil => exact absurd hp (pieces_ne_nil '/' cs)
        | cons p ps =>
          rw [hp] at h
          simp [hc, ← (List.cons.inj h).1]

/-- A relative path taken from a directory begins with the segments of the directory. -/
theorem segments_under (root : String) :
    ∃ pre, ∀ path, isAbsolute path = false → segments (under root path) = pre ++ segments path := by
  by_cases hroot : (root.isEmpty || root.toList.getLast? == some '/') = true
  · rcases (Bool.or_eq_true ..).mp hroot with hempty | hslash
    · refine ⟨[], fun path h => ?_⟩
      rw [String.isEmpty_iff] at hempty
      simp [under, h, hempty]
    · rw [beq_iff_eq, List.getLast?_eq_some_iff] at hslash
      obtain ⟨front, hfront⟩ := hslash
      refine ⟨pieces '/' front, fun path h => ?_⟩
      simp [under, h, segments, hfront, pieces_append_cons]
  · refine ⟨pieces '/' root.toList, fun path h => ?_⟩
    simp [under, h, hroot, segments, pieces_append_cons]

/-! ## Artifacts -/

/-- A segment `a ++ b` with a dot and the marker put in between. -/
def mark (marker : String) (a b : Segment) : Segment :=
  a ++ '.' :: marker.toList ++ b

theorem mark_ne (marker : String) (a b : Segment) : mark marker a b ≠ a ++ b := by
  intro h
  have hlen := congrArg List.length h
  simp [mark] at hlen
  omega

theorem IsOrdinary.mark (h : IsOrdinary (a ++ b)) (hab : a = [] → b = []) (marker : String) :
    IsOrdinary (mark marker a b) := by
  obtain ⟨hempty, hhere, -⟩ := h
  cases a with
  | nil => exact absurd (by simp [hab rfl]) hempty
  | cons c cs =>
    refine ⟨by simp [Path.mark], by simp [Path.mark, here], fun heq => ?_⟩
    -- Only `.` itself becomes `..` by a dot behind it.
    simp only [Path.mark, above, List.cons_append, List.cons.injEq, List.append_assoc] at heq
    obtain ⟨rfl, htail⟩ := heq
    have hlen := congrArg List.length htail
    simp only [List.length_append, List.length_cons, List.length_nil] at hlen
    have hcs : cs = [] := List.length_eq_zero_iff.mp (by omega)
    have hb : b = [] := List.length_eq_zero_iff.mp (by omega)
    exact hhere (by simp [hcs, hb, here])

/-- A name with the marker in front of its extension, and behind it if it has none. -/
def marked (marker : String) (name : Segment) : Segment :=
  match lastIndexOf? '.' name with
  | some (dot + 1) => mark marker (name.take (dot + 1)) (name.drop (dot + 1))
  | _ => mark marker name []

/-- An extension begins with the last dot of a name, unless the name begins with that. -/
theorem marked_cases (marker : String) (name : Segment) :
    (∃ front back, name = front ++ '.' :: back ∧ front ≠ [] ∧ '.' ∉ back ∧
      marked marker name = mark marker front ('.' :: back)) ∨
    ('.' ∉ name.tail ∧ marked marker name = mark marker name []) := by
  cases hdot : lastIndexOf? '.' name with
  | none =>
    right
    have hnone : '.' ∉ name := lastIndexOf?_eq_none.mp hdot
    exact ⟨fun h => hnone (List.mem_of_mem_tail h), by simp [marked, hdot]⟩
  | some i =>
    obtain ⟨front, back, rfl, rfl, hback⟩ := lastIndexOf?_eq_some hdot
    cases front with
    | nil => exact .inr ⟨hback, by rw [marked, hdot]; rfl⟩
    | cons c cs =>
      refine .inl ⟨c :: cs, back, rfl, List.cons_ne_nil c cs, hback, ?_⟩
      rw [marked, hdot]
      simp

theorem exists_mark (marker : String) (name : Segment) :
    ∃ a b, name = a ++ b ∧ (a = [] → b = []) ∧ marked marker name = mark marker a b := by
  rcases marked_cases marker name with ⟨front, back, rfl, hne, -, hmark⟩ | ⟨-, hmark⟩
  · exact ⟨front, '.' :: back, rfl, fun h => absurd h hne, hmark⟩
  · exact ⟨name, [], (List.append_nil name).symm, fun _ => rfl, hmark⟩

theorem notMem_marked (hmarker : '/' ∉ marker.toList) {name : Segment} (hname : '/' ∉ name) :
    '/' ∉ marked marker name := by
  obtain ⟨a, b, rfl, -, hmark⟩ := exists_mark marker name
  rw [List.mem_append, not_or] at hname
  rw [hmark, mark]
  simp [hname, hmarker]

theorem marked_ne (marker : String) (name : Segment) : marked marker name ≠ name := by
  obtain ⟨a, b, rfl, -, hmark⟩ := exists_mark marker name
  exact hmark ▸ mark_ne marker a b

theorem IsOrdinary.marked {name : Segment} (h : IsOrdinary name) (marker : String) :
    IsOrdinary (Path.marked marker name) := by
  obtain ⟨a, b, rfl, hab, hmark⟩ := exists_mark marker name
  exact hmark ▸ h.mark hab marker

/-- A name without an extension does not get the marked form of one that has an extension. -/
theorem mark_extension_ne {front back name : Segment} (hfront : front ≠ [])
    (hname : '.' ∉ name.tail) :
    mark marker front ('.' :: back) ≠ mark marker name [] := by
  intro heq
  have hcount := congrArg (List.count '.') heq
  cases name with
  | nil =>
    simp [mark] at hcount
    omega
  | cons c cs =>
    -- The marked extension has a dot more, which can only be the first character of the name.
    have hcs : cs.count '.' = 0 := List.count_eq_zero.mpr hname
    obtain ⟨d, ds, rfl⟩ := List.exists_cons_of_ne_nil hfront
    have hhead : d = c := by
      simp only [mark, List.cons_append, List.cons.injEq] at heq
      exact heq.1
    subst hhead
    simp [mark, hcs, List.count_cons] at hcount
    omega

/-- Different names have different marked forms. -/
theorem marked_injective (marker : String) : Function.Injective (marked marker) := by
  intro name other heq
  rcases marked_cases marker name with ⟨front, back, rfl, hfront, hback, hmark⟩ | ⟨htail, hmark⟩ <;>
    rcases marked_cases marker other with
      ⟨front', back', rfl, hfront', hback', hmark'⟩ | ⟨htail', hmark'⟩
  · -- The extensions are what stands behind the last dots.
    rw [hmark, hmark', mark, mark] at heq
    obtain ⟨hstem, rfl⟩ := eq_of_append_cons_eq hback hback' heq
    rw [List.append_cancel_right hstem]
  · exact absurd (hmark ▸ hmark' ▸ heq) (mark_extension_ne hfront htail')
  · exact absurd (hmark ▸ hmark' ▸ heq).symm (mark_extension_ne hfront' htail)
  · rw [hmark, hmark', mark, mark] at heq
    exact List.append_cancel_right (List.append_cancel_right heq)

/-- The text in front of the last segment. -/
theorem exists_front (pre : List Segment) :
    ∃ front, ∀ last, joinWith ['/'] (pre ++ [last]) = front ++ last := by
  by_cases h : pre = []
  · exact ⟨[], fun last => by rw [joinWith_concat, if_pos h, List.nil_append]⟩
  · exact ⟨joinWith ['/'] pre ++ ['/'], fun last => by rw [joinWith_concat, if_neg h]⟩

theorem toList_patchedName {front : List Char} {last : Segment} (marker : String)
    (hpath : path.toList = front ++ last) (hlast : (segments path).getLast? = some last) :
    (patchedName path marker).toList = front ++ marked marker last := by
  unfold patchedName marked
  simp only [hlast, hpath, Option.getD_some, List.length_append, Nat.add_sub_cancel,
    List.take_left']
  cases lastIndexOf? '.' last with
  | none => simp [mark, hpath]
  | some i => cases i <;> simp [mark, hpath]

/-- A path that ends in another segment, if that holds no slash. -/
theorem segments_of_toList {front : List Char} {pre : List Segment} {last other : Segment}
    (hpath : segments path = pre ++ [last])
    (hfront : ∀ segment, joinWith ['/'] (pre ++ [segment]) = front ++ segment)
    (hother : '/' ∉ other) {result : String} (hresult : result.toList = front ++ other) :
    segments result = pre ++ [other] := by
  rw [segments, hresult, ← hfront]
  refine pieces_joinWith (List.concat_ne_nil _ _) fun segment h => ?_
  rcases List.mem_append.mp h with h | h
  · exact notMem_of_mem_segments (hpath ▸ List.mem_append_left _ h)
  · exact List.mem_singleton.mp h ▸ hother

/-- The marker goes into the last segment. -/
theorem segments_patchedName_of (hmarker : '/' ∉ marker.toList) {last : Segment}
    (hpath : segments path = pre ++ [last]) :
    segments (patchedName path marker) = pre ++ [marked marker last] := by
  obtain ⟨front, hfront⟩ := exists_front pre
  have htext : path.toList = front ++ last := by rw [toList_eq_joinWith, hpath, hfront]
  have hlast : '/' ∉ last := notMem_of_mem_segments (hpath ▸ List.mem_concat_self ..)
  exact segments_of_toList hpath hfront (notMem_marked hmarker hlast)
    (toList_patchedName marker htext (by simp [hpath]))

/-- The marker goes into the last segment, and not in front of a name. -/
theorem segments_patchedName (hmarker : '/' ∉ marker.toList) (path : String) :
    ∃ pre a b, segments path = pre ++ [a ++ b] ∧ (a = [] → b = []) ∧
      segments (patchedName path marker) = pre ++ [mark marker a b] := by
  obtain ⟨pre, last, hpath⟩ := segments_eq_concat path
  obtain ⟨a, b, rfl, hab, hmark⟩ := exists_mark marker last
  exact ⟨pre, a, b, hpath, hab, hmark ▸ segments_patchedName_of hmarker hpath⟩

/-- A path is absolute if and only if its patched form is. -/
theorem isAbsolute_patchedName (hmarker : '/' ∉ marker.toList) (path : String) :
    isAbsolute (patchedName path marker) = isAbsolute path := by
  obtain ⟨pre, a, b, hpath, -, hpatched⟩ := segments_patchedName hmarker path
  rw [isAbsolute_of_segments hpath, isAbsolute_of_segments hpatched]

/-- Different files have different artifacts. -/
theorem patchedName_injective (hmarker : '/' ∉ marker.toList) :
    Function.Injective (patchedName · marker) := by
  intro path other h
  obtain ⟨pre, last, hpath⟩ := segments_eq_concat path
  obtain ⟨pre', last', hother⟩ := segments_eq_concat other
  have hsegments := congrArg segments h
  simp only [segments_patchedName_of hmarker hpath,
    segments_patchedName_of hmarker hother] at hsegments
  obtain ⟨rfl, hlast⟩ := List.append_inj' hsegments rfl
  obtain rfl := marked_injective marker (List.cons.inj hlast).1
  exact segments_injective (hpath.trans hother.symm)

/-- No file is its own artifact. -/
theorem patchedName_ne_self (hmarker : '/' ∉ marker.toList) (path : String) :
    patchedName path marker ≠ path := by
  intro h
  obtain ⟨pre, last, hpath⟩ := segments_eq_concat path
  have hsegments := segments_patchedName_of hmarker hpath
  rw [h, hpath] at hsegments
  exact marked_ne marker last (List.cons.inj (List.append_cancel_left hsegments)).1.symm

/-- The artifact of a file taken from a directory is that of the path it has there. -/
theorem under_patchedName (hmarker : '/' ∉ marker.toList) (root path : String) :
    under root (patchedName path marker) = patchedName (under root path) marker := by
  have habs := isAbsolute_patchedName hmarker path
  cases h : isAbsolute path with
  | true => rw [under, if_pos (habs.trans h), under, if_pos h]
  | false =>
    obtain ⟨front, hfront⟩ := segments_under root
    obtain ⟨pre, last, hpath⟩ := segments_eq_concat path
    have hunder : segments (under root path) = front ++ pre ++ [last] := by
      rw [hfront path h, hpath, List.append_assoc]
    refine segments_injective ?_
    rw [segments_patchedName_of hmarker hunder, hfront _ (habs.trans h),
      segments_patchedName_of hmarker hpath, List.append_assoc]

end Retrofit.Path

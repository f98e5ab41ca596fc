import Retrofit.Proofs.Path.Artifact

/-!
# Finding the file behind the name of an artifact

**Theorem (`patchedName_invertible`).** Different files have different artifacts, no file is its own
artifact, and `sourceName?` is the inverse of `patchedName`: it finds a file behind a name if and
only if that is the name of its artifact.

A name may end in the dotted marker although the marker went in front of an extension, since the end
of the marker and the extension together can be the marker again: `a.x.x` is made of `a.x` in both
ways. The file is the same in both readings (`eq_extension_of_append_eq`), so it does not matter
which one is tried first. Directories in front of the name do not matter either, since the marker
went into the last segment (`unmarked?_append_marked`).
-/

namespace Retrofit.Path

open Text

variable {marker name source : String} {segment : Segment}

/-! ## Taking the marker out again -/

/-- Where a dotted text with an extension behind it ends in the dotted text again, what stands in
front of that is the extension. -/
theorem eq_extension_of_append_eq {dotted front back : List Char} (hback : '.' ∉ back)
    (hdotted : dotted = [] ∨ ∃ rest, dotted = '.' :: rest)
    (h : dotted ++ '.' :: back = front ++ dotted) : front = '.' :: back := by
  -- The extension is taken off the end of the dotted text until nothing is left of it.
  induction hlength : dotted.length using Nat.strongRecOn generalizing dotted with
  | ind length ih =>
    rcases List.append_eq_append_iff.mp h with ⟨middle, rfl, hextension⟩ | ⟨rest, hcut, hrest⟩
    · rcases hdotted with rfl | ⟨rest, rfl⟩
      · simpa using hextension.symm
      · -- The extension has no dot but its first character, so nothing is in front of the dotted
        -- text.
        cases middle with
        | nil => simpa using hextension.symm
        | cons c cs =>
          rw [List.cons_append, List.cons.injEq] at hextension
          exact absurd (hextension.2 ▸ List.mem_append_right cs (List.mem_cons_self ..)) hback
    · have hshorter : rest.length < length := by
        rw [← hlength, hrest, List.length_append, List.length_cons]
        omega
      have hstart : rest = [] ∨ ∃ more, rest = '.' :: more := by
        cases rest with
        | nil => exact .inl rfl
        | cons c more =>
          rcases hdotted with rfl | ⟨_, rfl⟩
          · cases hrest
          · rw [List.cons_append, List.cons.injEq] at hrest
            exact .inr ⟨more, by rw [hrest.1]⟩
      exact ih rest.length hshorter hstart (hrest.symm.trans hcut) rfl

/-- The marker is found where it was put, whatever stands in front of the name. -/
theorem unmarked?_append_marked (marker : String) (pre : List Char) (segment : Segment) :
    unmarked? marker (pre ++ marked marker segment) = some (pre ++ segment) := by
  rcases marked_cases marker segment with ⟨front, back, rfl, -, hback, hmark⟩ | ⟨-, hmark⟩
  · rw [hmark, mark, ← List.append_assoc, ← List.append_assoc, ← List.append_assoc]
    generalize pre ++ front = front
    cases hends :
      stripEnd? ('.' :: marker.toList) (front ++ '.' :: marker.toList ++ '.' :: back) with
    | none =>
      have hfront := stripEnd?_append front ('.' :: marker.toList)
      simp only [unmarked?, hends, lastIndexOf?_append_cons hback, List.take_left', List.drop_left',
        Option.bind_eq_bind, Option.bind_some, hfront, Option.pure_def]
    | some other =>
      have hother := eq_append_of_stripEnd? hends
      rw [List.append_assoc] at hother
      rcases List.append_eq_append_iff.mp hother
          with ⟨extension, rfl, hextension⟩ | ⟨rest, -, hdotted⟩
      · rw [eq_extension_of_append_eq hback (.inr ⟨_, rfl⟩) hextension] at hends
        simp only [unmarked?, hends]
      · have hlength := congrArg List.length hdotted
        simp only [List.length_append, List.length_cons] at hlength
        omega
  · rw [hmark, mark, List.append_nil, unmarked?, ← List.append_assoc]
    simp only [stripEnd?_append]

/-! ## Names -/

/-- What is found behind a name has a patched form of that name. -/
theorem sourceName?_eq_some :
    sourceName? name marker = some source ↔
      unmarked? marker name.toList = some source.toList ∧ source ≠ "" ∧
        patchedName source marker = name := by
  simp only [sourceName?, Option.filter_eq_some_iff, Option.map_eq_some_iff, Bool.and_eq_true,
    Bool.not_eq_true', beq_iff_eq, String.isEmpty_eq_false_iff]
  refine and_congr_left fun _ => ⟨?_, fun h => ⟨_, h, String.ofList_toList⟩⟩
  rintro ⟨segment, hsegment, rfl⟩
  rwa [String.toList_ofList]

/-- The file behind the name of an artifact is found. -/
theorem sourceName?_patchedName (hsource : source ≠ "") (marker : String) :
    sourceName? (patchedName source marker) marker = some source := by
  obtain ⟨pre, last, hsegments⟩ := segments_eq_concat source
  obtain ⟨front, hfront⟩ := exists_front pre
  have htext : source.toList = front ++ last := by rw [toList_eq_joinWith, hsegments, hfront]
  refine sourceName?_eq_some.mpr ⟨?_, hsource, rfl⟩
  rw [toList_patchedName marker htext (by simp [hsegments]), unmarked?_append_marked, htext]

/-- **The file behind a name.** It is found if and only if the name is that of its artifact. -/
theorem sourceName?_eq_some_iff :
    sourceName? name marker = some source ↔ source ≠ "" ∧ patchedName source marker = name := by
  constructor
  · exact fun h => (sourceName?_eq_some.mp h).2
  · rintro ⟨hsource, rfl⟩
    exact sourceName?_patchedName hsource marker

/-- A file without directories in its name is found behind the marked name. -/
theorem sourceName?_marked (hempty : segment ≠ []) (hslash : '/' ∉ segment) (marker : String) :
    sourceName? (String.ofList (marked marker segment)) marker = some (String.ofList segment) := by
  have hsegments : segments (String.ofList segment) = [segment] := by
    rw [segments, String.toList_ofList, pieces_of_notMem hslash]
  have htext : (String.ofList segment).toList = [] ++ segment := String.toList_ofList
  have hpatched := toList_patchedName marker htext (by rw [hsegments]; rfl)
  refine sourceName?_eq_some_iff.mpr ⟨?_, ?_⟩
  · rwa [ne_eq, ← String.toList_inj, String.toList_ofList]
  · rw [← String.toList_inj, hpatched, String.toList_ofList, List.nil_append]

/-- A file whose artifact has a name without directories is named without them. -/
theorem toList_patchedName_of_notMem (hmarker : '/' ∉ marker.toList)
    (hname : '/' ∉ (patchedName source marker).toList) :
    (patchedName source marker).toList = marked marker source.toList := by
  obtain ⟨pre, last, hsource⟩ := segments_eq_concat source
  have hpatched := segments_patchedName_of hmarker hsource
  rw [segments, pieces_of_notMem hname] at hpatched
  have hcut : [] ++ [(patchedName source marker).toList] = pre ++ [marked marker last] := hpatched
  obtain ⟨rfl, hlast⟩ := List.append_inj' hcut rfl
  rw [(List.cons.inj hlast).1, toList_eq_joinWith source, hsource]
  rfl

/-- The name of an artifact has a dot behind its first character. -/
theorem dot_mem_tail_of_sourceName? (hmarker : '/' ∉ marker.toList) (hname : '/' ∉ name.toList)
    (h : sourceName? name marker = some source) : '.' ∈ name.toList.tail := by
  obtain ⟨-, hsource, rfl⟩ := sourceName?_eq_some.mp h
  rw [toList_patchedName_of_notMem hmarker hname]
  obtain ⟨a, b, hcut, hab, hmark⟩ := exists_mark marker source.toList
  rw [hmark, mark]
  cases a with
  | nil =>
    rw [hab rfl] at hcut
    exact absurd (String.toList_eq_nil_iff.mp hcut) hsource
  | cons c cs => simp

/-! ## The way there and back -/

/-- **Names of artifacts can be taken back.** -/
theorem patchedName_invertible (hmarker : '/' ∉ marker.toList) :
    Function.Injective (patchedName · marker) ∧ (∀ file, patchedName file marker ≠ file) ∧
      ∀ name source, sourceName? name marker = some source ↔
        source ≠ "" ∧ patchedName source marker = name :=
  ⟨patchedName_injective hmarker, patchedName_ne_self hmarker, fun _ _ => sourceName?_eq_some_iff⟩

/-- The marker is the extension of the file, so the name ends in the dotted marker twice. -/
theorem patchedName_invertible_twice :
    '/' ∉ "js".toList ∧ patchedName "a.js" "js" = "a.js.js" ∧
      ∀ source, sourceName? "a.js.js" "js" = some source ↔ source = "a.js" := by
  have hmarker : '/' ∉ "js".toList := by decide
  have hname : patchedName "a.js" "js" = "a.js.js" := by decide
  obtain ⟨hinjective, -, hinverse⟩ := patchedName_invertible hmarker
  refine ⟨hmarker, hname, fun source => ?_⟩
  rw [hinverse]
  constructor
  · rintro ⟨-, hsource⟩
    exact hinjective (hsource.trans hname.symm)
  · rintro rfl
    exact ⟨by decide, hname⟩

end Retrofit.Path

import Retrofit.Proofs.Path.Resolution

/-!
# Files below a directory

**Theorem (`below_iff_staysBelow`).** A file name that is written behind a directory leads below it
if and only if it leads up no further than it comes back: behind its steps up it names the
directories that they have left, and then something below (`StaysBelow`).

In particular a name that leads down only leads below (`LeadsDown.staysBelow`). From the root
further steps up lead nowhere, so there a name may have more of them than there are directories.
-/

namespace Retrofit.Path

variable {absolute : Bool} {front back names : List Segment} {directory path file : String}

/-- By its text the path leads to something below the directory. -/
def Below (directory path : String) : Prop :=
  isAbsolute path = isAbsolute directory ∧
    ∃ names, names ≠ [] ∧ (∀ segment ∈ names, IsOrdinary segment) ∧
      resolved path = resolved directory ++ names

/-- Behind its steps up, the file name leads back over the names `back` of the directories that
these have left, and then to something below the directory. -/
def StaysBelow (directory file : String) : Prop :=
  ∃ ups back names, trail file = List.replicate ups above ++ (back ++ names) ∧ names ≠ [] ∧
    (∀ segment ∈ back ++ names, IsOrdinary segment) ∧ back <:+ resolved directory ∧
    (ups = back.length ∨ isAbsolute directory = true ∧ back = resolved directory ∧
      back.length ≤ ups)

/-- The file name leads to something, and never up from where it starts. -/
structure LeadsDown (file : String) : Prop where
  ne_nil : trail file ≠ []
  ordinary : ∀ segment ∈ trail file, IsOrdinary segment

/-! ## Climbing -/

theorem foldl_push_climb {stack : List Segment} (h : ∀ segment ∈ names, IsOrdinary segment) :
    (List.replicate names.length above).foldl (push absolute) (names ++ stack) = stack := by
  induction names with
  | nil => rfl
  | cons name rest ih =>
    obtain ⟨hname, hrest⟩ := List.forall_mem_cons.mp h
    rw [List.length_cons, List.replicate_succ, List.foldl_cons, List.cons_append,
      push_above_cons hname, ih hrest]

/-- As many steps up as there are names lead back to where the names begin. -/
theorem resolve_climb (front : List Segment) (h : ∀ segment ∈ back, IsOrdinary segment) :
    resolve absolute (front ++ back ++ List.replicate back.length above) =
      resolve absolute front := by
  have hreverse : ∀ segment ∈ back.reverse, IsOrdinary segment := fun segment hmem =>
    h segment (List.mem_reverse.mp hmem)
  rw [resolve_append, resolve_append_of_isOrdinary front h, List.reverse_append,
    ← List.length_reverse, foldl_push_climb hreverse, List.reverse_reverse]

/-- Steps up from the root lead nowhere. -/
theorem resolve_replicate_above (ups : Nat) : resolve true (List.replicate ups above) = [] := by
  induction ups with
  | zero => rfl
  | succ ups ih => rw [List.replicate_succ', resolve_concat, ih]; rfl

theorem resolve_climb_root {ups : Nat} (h : ∀ segment ∈ back, IsOrdinary segment)
    (hle : back.length ≤ ups) : resolve true (back ++ List.replicate ups above) = [] := by
  obtain ⟨more, rfl⟩ := Nat.exists_eq_add_of_le hle
  have hclimb : resolve true (back ++ List.replicate back.length above) = [] := resolve_climb [] h
  rw [← List.replicate_append_replicate, ← List.append_assoc, ← resolve_resolve_append, hclimb]
  exact resolve_replicate_above more

/-- What stands in front of names in a normal form is a normal form as well. -/
theorem resolve_of_append (hnormal : IsNormal absolute (front ++ back))
    (h : ∀ segment ∈ back, IsOrdinary segment) : resolve absolute front = front := by
  have hresolve := resolve_of_isNormal hnormal
  rw [resolve_append_of_isOrdinary front h] at hresolve
  exact List.append_cancel_right hresolve

theorem count_above (h : ∀ segment ∈ names, IsOrdinary segment) : names.count above = 0 :=
  List.count_eq_zero.mpr fun hmem => (h above hmem).2.2 rfl

/-- Where steps up lead from a normal form: back over as many of its names, or over all of them and
further up, if that is possible. -/
theorem resolve_append_ups {left : List Segment} (hleft : IsNormal absolute left) (ups : Nat) :
    (∃ front back, left = front ++ back ∧ back.length = ups ∧
      (∀ segment ∈ back, IsOrdinary segment) ∧
      resolve absolute (left ++ List.replicate ups above) = front) ∨
    (absolute = true ∧ left.length ≤ ups ∧ (∀ segment ∈ left, IsOrdinary segment) ∧
      resolve absolute (left ++ List.replicate ups above) = []) ∨
    (∃ more, left.count above < more ∧
      resolve absolute (left ++ List.replicate ups above) = List.replicate more above) := by
  obtain ⟨steps, names, rfl, hnames, hsteps⟩ := id hleft
  by_cases hle : ups ≤ names.length
  · left
    obtain ⟨front, back, rfl, rfl⟩ : ∃ front back, names = front ++ back ∧ back.length = ups :=
      ⟨names.take (names.length - ups), names.drop (names.length - ups),
        (List.take_append_drop ..).symm, by rw [List.length_drop]; omega⟩
    have hback : ∀ segment ∈ back, IsOrdinary segment := fun segment hmem =>
      hnames segment (List.mem_append_right _ hmem)
    rw [← List.append_assoc] at hleft ⊢
    exact ⟨List.replicate steps above ++ front, back, rfl, rfl, hback,
      (resolve_climb _ hback).trans (resolve_of_append hleft hback)⟩
  · right
    have hlt : names.length < ups := Nat.lt_of_not_le hle
    have hle : names.length ≤ ups := Nat.le_of_lt hlt
    cases absolute with
    | true =>
      left
      rw [hsteps rfl, List.replicate_zero, List.nil_append]
      exact ⟨rfl, hle, hnames, resolve_climb_root hnames hle⟩
    | false =>
      right
      obtain ⟨more, rfl⟩ := Nat.exists_eq_add_of_lt hlt
      refine ⟨steps + (more + 1), ?_, ?_⟩
      · rw [List.count_append, List.count_replicate_self, count_above hnames]
        omega
      · rw [Nat.add_assoc, ← List.replicate_append_replicate, ← List.append_assoc,
          ← resolve_resolve_append, resolve_climb _ hnames, resolve_resolve_append,
          List.replicate_append_replicate]
        exact resolve_of_isNormal ⟨_, [], (List.append_nil _).symm, nofun, nofun⟩

/-! ## Files written behind a directory -/

theorem below_of_staysBelow (habs : isAbsolute path = isAbsolute directory)
    (hpath : resolved path = resolve (isAbsolute directory) (resolved directory ++ segments file))
    (h : StaysBelow directory file) : Below directory path := by
  obtain ⟨ups, back, names, hfile, hne, hord, ⟨front, hdirectory⟩, hups⟩ := h
  refine ⟨habs, names, hne, fun segment hmem => hord segment (List.mem_append_right _ hmem), ?_⟩
  have hback : ∀ segment ∈ back, IsOrdinary segment := fun segment hmem =>
    hord segment (List.mem_append_left _ hmem)
  have hnormal : IsNormal (isAbsolute directory) (front ++ back) := by
    rw [hdirectory]
    exact isNormal_resolved directory
  have hfront : resolve (isAbsolute directory) front = front := resolve_of_append hnormal hback
  have hclimb : resolve (isAbsolute directory) (resolved directory ++ List.replicate ups above) =
      front := by
    rcases hups with rfl | ⟨hroot, hwhole, hle⟩
    · rw [← hdirectory, resolve_climb front hback, hfront]
    · rw [← hwhole] at hdirectory ⊢
      rw [hroot, resolve_climb_root hback hle, List.append_left_eq_self.mp hdirectory]
  rw [hpath, ← resolve_append_trail, hfile, ← List.append_assoc,
    resolve_append_of_isOrdinary _ hord, hclimb, ← hdirectory, List.append_assoc]

theorem staysBelow_of_below
    (hpath : resolved path = resolve (isAbsolute directory) (resolved directory ++ segments file))
    (h : Below directory path) : StaysBelow directory file := by
  obtain ⟨-, names, hne, hord, hbelow⟩ := h
  obtain ⟨ups, rest, hfile, hrest, -⟩ := isNormal_resolve false (segments file)
  rw [hpath, ← resolve_append_trail, trail, hfile, ← List.append_assoc,
    resolve_append_of_isOrdinary _ hrest] at hbelow
  rcases resolve_append_ups (isNormal_resolved directory) ups with
    ⟨front, back, hdirectory, hlength, hback, hclimb⟩ | ⟨hroot, hle, hback, hclimb⟩ |
    ⟨more, hcount, hclimb⟩
  · rw [hclimb, hdirectory, List.append_assoc, List.append_cancel_left_eq] at hbelow
    refine ⟨ups, back, names, hbelow ▸ hfile, hne, ?_, ⟨front, hdirectory.symm⟩, .inl hlength.symm⟩
    exact List.forall_mem_append.mpr ⟨hback, hord⟩
  · rw [hclimb, List.nil_append] at hbelow
    refine ⟨ups, resolved directory, names, hbelow ▸ hfile, hne, ?_, List.suffix_rfl,
      .inr ⟨hroot, rfl, hle⟩⟩
    exact List.forall_mem_append.mpr ⟨hback, hord⟩
  · -- More steps up are left than the directory has.
    rw [hclimb] at hbelow
    have heq := congrArg (List.count above) hbelow
    rw [List.count_append, List.count_append, List.count_replicate_self, count_above hrest,
      count_above hord] at heq
    omega

/-- **Where a file name leads.** It leads below the directory if and only if it leads up no further
than it comes back. -/
theorem below_iff_staysBelow (habs : isAbsolute path = isAbsolute directory)
    (hpath : resolved path = resolve (isAbsolute directory) (resolved directory ++ segments file)) :
    Below directory path ↔ StaysBelow directory file :=
  ⟨staysBelow_of_below hpath, below_of_staysBelow habs hpath⟩

/-- A name that leads down only leads below every directory. -/
theorem LeadsDown.staysBelow (h : LeadsDown file) (directory : String) :
    StaysBelow directory file :=
  ⟨0, [], trail file, rfl, h.ne_nil, h.ordinary, List.nil_suffix, .inl rfl⟩

/-- Another name at the end of a path leads below the same directory. -/
theorem Below.of_segments {other : String} {pre : List Segment} {last last' : Segment}
    (h : Below directory path) (hpath : segments path = pre ++ [last])
    (hother : segments other = pre ++ [last']) (hlast : IsOrdinary last)
    (hlast' : IsOrdinary last') :
    Below directory other := by
  obtain ⟨habs, names, hne, hord, hbelow⟩ := h
  have hsame : isAbsolute other = isAbsolute path := by
    rw [isAbsolute_of_segments hother, isAbsolute_of_segments hpath]
  obtain ⟨front, name, rfl⟩ := names.eq_nil_or_concat'.resolve_left hne
  have hfront : resolve (isAbsolute path) pre = resolved directory ++ front := by
    rw [resolved, hpath, resolve_append_of_isOrdinary pre (List.forall_mem_singleton.mpr hlast),
      ← List.append_assoc] at hbelow
    exact (List.append_inj' hbelow rfl).1
  refine ⟨hsame.trans habs, front ++ [last'], List.concat_ne_nil _ _, ?_, ?_⟩
  · exact List.forall_mem_append.mpr
      ⟨(List.forall_mem_append.mp hord).1, List.forall_mem_singleton.mpr hlast'⟩
  · rw [resolved, hother, hsame,
      resolve_append_of_isOrdinary pre (List.forall_mem_singleton.mpr hlast'), hfront,
      List.append_assoc]

end Retrofit.Path

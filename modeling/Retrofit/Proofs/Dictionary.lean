import Mathlib.Data.List.Nodup
import Mathlib.Tactic.SplitIfs
import Retrofit.Dictionary

/-!
# Laws of dictionaries

What a key has after pairs have been put in one after the other, and after entries have been taken
out by their keys. These laws do not need the keys to be in order, so they hold in every list of
pairs.

With the keys in order the entries alone make a dictionary (`eq_of_mem_iff`), so it does not matter
in which order they are put in (`ofList_eq_of_perm`).
-/

namespace Retrofit.Dictionary

variable {α : Type} {key other : String} {value : α}

theorem get?_isSome_iff_mem_keys {d : Dictionary α} : (get? key d).isSome ↔ key ∈ keys d := by
  induction d with
  | nil => simp [get?, keys]
  | cons entry rest ih =>
    by_cases h : entry.1 = key
    · simp [get?, keys, h]
    · rw [get?, if_neg h, ih]
      simp [keys, Ne.symm h]

theorem exists_get?_iff_mem_keys {d : Dictionary α} :
    (∃ value, get? key d = some value) ↔ key ∈ keys d := by
  rw [← Option.isSome_iff_exists, get?_isSome_iff_mem_keys]

theorem mem_of_get? {d : Dictionary α} (h : get? key d = some value) : (key, value) ∈ d := by
  induction d with
  | nil => cases h
  | cons entry rest ih =>
    rw [get?] at h
    split_ifs at h with heq
    · rw [← heq, ← Option.some.inj h]
      exact List.mem_cons_self ..
    · exact List.mem_cons_of_mem _ (ih h)

/-- Taking out entries by their keys leaves the others as they are. -/
theorem get?_filter (p : String → Bool) (d : Dictionary α) :
    get? key (d.filter fun entry => p entry.1) = if p key then get? key d else none := by
  induction d with
  | nil => simp [get?]
  | cons entry rest ih =>
    by_cases heq : entry.1 = key
    · subst heq
      by_cases hp : p entry.1 <;> simp [get?, hp, ih]
    · by_cases hp : p entry.1 <;> simp [get?, hp, heq, ih]

/-! ## Pairs put in one after the other -/

theorem mem_of_mem_ofList {entry : String × α} {pairs : List (String × α)}
    (h : entry ∈ ofList pairs) :
    entry ∈ pairs := by
  rw [ofList, List.foldl_eq_foldr_reverse] at h
  rw [← List.mem_reverse]
  generalize pairs.reverse = reversed at h ⊢
  induction reversed with
  | nil => cases h
  | cons last front ih =>
    rcases mem_insert h with rfl | h
    · exact List.mem_cons_self ..
    · exact List.mem_cons_of_mem _ (ih h)

theorem insert_map {β : Type} (f : α → β) (d : Dictionary α) :
    insert key (f value) (d.map fun entry => (entry.1, f entry.2)) =
      (insert key value d).map fun entry => (entry.1, f entry.2) := by
  induction d with
  | nil => rfl
  | cons entry rest ih =>
    simp only [List.map_cons, insert]
    split_ifs
    · rfl
    · rfl
    · rw [ih, List.map_cons]

theorem ofList_map {β : Type} (f : α → β) (pairs : List (String × α)) :
    ofList (pairs.map fun entry => (entry.1, f entry.2)) =
      (ofList pairs).map fun entry => (entry.1, f entry.2) := by
  rw [ofList, ofList, List.foldl_eq_foldr_reverse, List.foldl_eq_foldr_reverse, ← List.map_reverse]
  induction pairs.reverse with
  | nil => rfl
  | cons entry rest ih =>
    rw [List.map_cons, List.foldr_cons, List.foldr_cons, ih]
    exact insert_map f _

/-- The last pair with a key counts. -/
theorem get?_ofList (pairs : List (String × α)) :
    get? key (ofList pairs) = (pairs.findRev? (·.1 == key)).map Prod.snd := by
  rw [ofList, List.foldl_eq_foldr_reverse, List.findRev?_eq_find?_reverse]
  induction pairs.reverse with
  | nil => rfl
  | cons last front ih =>
    rw [List.foldr_cons]
    by_cases heq : last.1 = key
    · subst heq
      rw [List.find?_cons_of_pos (by simp), get?_insert_self]
      rfl
    · rw [List.find?_cons_of_neg (by simpa using heq), get?_insert_of_ne (Ne.symm heq), ih]

theorem exists_get?_ofList {pairs : List (String × α)} (h : (key, value) ∈ pairs) :
    ∃ last, get? key (ofList pairs) = some last ∧ (key, last) ∈ pairs := by
  have hfound : (pairs.findRev? (·.1 == key)).isSome = true := by
    rw [List.findRev?_eq_find?_reverse, List.find?_isSome]
    exact ⟨(key, value), List.mem_reverse.mpr h, BEq.rfl⟩
  obtain ⟨last, hlast⟩ := Option.isSome_iff_exists.mp hfound
  have hget : get? key (ofList pairs) = some last.2 := by
    rw [get?_ofList, hlast]
    rfl
  exact ⟨last.2, hget, mem_of_mem_ofList (mem_of_get? hget)⟩

/-! ## The order of the keys -/

theorem pairwise_keys_ofList (pairs : List (String × α)) :
    (keys (ofList pairs)).Pairwise (· < ·) := by
  rw [ofList, List.foldl_eq_foldr_reverse]
  induction pairs.reverse with
  | nil => exact List.Pairwise.nil
  | cons last front ih => exact pairwise_keys_insert ih

/-- With the keys in order, each entry is found by its key. -/
theorem mem_iff_get? {d : Dictionary α} (h : (keys d).Pairwise (· < ·)) :
    (key, value) ∈ d ↔ get? key d = some value := by
  refine ⟨fun hmem => ?_, mem_of_get?⟩
  induction d with
  | nil => cases hmem
  | cons first rest ih =>
    obtain ⟨hfirst, hrest⟩ := List.pairwise_cons.mp h
    rcases List.mem_cons.mp hmem with rfl | hmem
    · simp [get?]
    · have hlt : first.1 < key := hfirst key (List.mem_map_of_mem hmem)
      rw [get?, if_neg (String.ne_of_lt hlt), ih hrest hmem]

theorem pairwise_of_keys {d : Dictionary α} (h : (keys d).Pairwise (· < ·)) :
    d.Pairwise fun entry entry' => entry.1 < entry'.1 :=
  List.pairwise_map.mp h

/-- Two dictionaries with the same entries are the same. -/
theorem eq_of_mem_iff {d d' : Dictionary α} (h : (keys d).Pairwise (· < ·))
    (h' : (keys d').Pairwise (· < ·)) (hmem : ∀ entry, entry ∈ d ↔ entry ∈ d') : d = d' := by
  have hnodup {d : Dictionary α} (h : (keys d).Pairwise (· < ·)) : d.Nodup :=
    (pairwise_of_keys h).imp fun hlt => ne_of_apply_ne Prod.fst (String.ne_of_lt hlt)
  refine List.Perm.eq_of_pairwise (fun _ _ _ _ hlt hgt => ?_) (pairwise_of_keys h)
    (pairwise_of_keys h') ((List.perm_ext_iff_of_nodup (hnodup h) (hnodup h')).mpr hmem)
  exact absurd (String.lt_trans hlt hgt) (String.lt_irrefl _)

/-- Two dictionaries with the same values are the same. -/
theorem eq_of_get?_eq {d d' : Dictionary α} (h : (keys d).Pairwise (· < ·))
    (h' : (keys d').Pairwise (· < ·)) (heq : ∀ key, get? key d = get? key d') : d = d' := by
  refine eq_of_mem_iff h h' fun entry => ?_
  rw [mem_iff_get? h, mem_iff_get? h', heq]

/-- Entries are taken out of a dictionary without changing the order of the others. -/
theorem pairwise_keys_filter {d : Dictionary α} (h : (keys d).Pairwise (· < ·))
    (p : String × α → Bool) :
    (keys (d.filter p)).Pairwise (· < ·) :=
  List.pairwise_map.mpr ((pairwise_of_keys h).filter p)

/-- Of pairs with different keys none is replaced. -/
theorem mem_ofList_iff {pairs : List (String × α)} (h : (pairs.map Prod.fst).Nodup)
    {entry : String × α} : entry ∈ ofList pairs ↔ entry ∈ pairs := by
  refine ⟨mem_of_mem_ofList, fun hmem => ?_⟩
  obtain ⟨last, hlast, hmem'⟩ := exists_get?_ofList hmem
  have hsame := List.inj_on_of_nodup_map h hmem hmem' rfl
  rw [hsame]
  exact mem_of_get? hlast

/-- The order in which the entries of a dictionary are put in does not matter. -/
theorem ofList_eq_of_perm {pairs : List (String × α)} {d : Dictionary α}
    (h : (keys d).Pairwise (· < ·)) (hperm : pairs.Perm d) : ofList pairs = d := by
  have hnodup : (pairs.map Prod.fst).Nodup := (hperm.map _).nodup_iff.mpr (h.imp String.ne_of_lt)
  refine eq_of_mem_iff (pairwise_keys_ofList pairs) h fun entry => ?_
  rw [mem_ofList_iff hnodup, hperm.mem_iff]

/-- Pairs with keys in order are a dictionary as they are. -/
theorem ofList_eq_self {d : Dictionary α} (h : (keys d).Pairwise (· < ·)) : ofList d = d :=
  ofList_eq_of_perm h (.refl d)

/-- Pairs may be taken out by their keys before or after they are put in. -/
theorem ofList_filter (p : String → Bool) (pairs : List (String × α)) :
    ofList (pairs.filter fun entry => p entry.1) = (ofList pairs).filter fun entry =>
      p entry.1 := by
  refine eq_of_get?_eq (pairwise_keys_ofList _)
    (pairwise_keys_filter (pairwise_keys_ofList pairs) _)
    fun key => ?_
  rw [get?_filter, get?_ofList, get?_ofList, List.findRev?_eq_find?_reverse,
    List.findRev?_eq_find?_reverse, ← List.filter_reverse, List.find?_filter]
  split_ifs with hp
  · congr 2
    funext entry
    by_cases heq : entry.1 = key
    · simp [heq, hp]
    · simp [heq]
  · have hnone :
        ∀ entry ∈ pairs.reverse, ¬ decide (p entry.1 = true ∧ (entry.1 == key) = true) = true := by
      intro entry _ hentry
      obtain ⟨hentry, hkey⟩ := of_decide_eq_true hentry
      exact hp (beq_iff_eq.mp hkey ▸ hentry)
    rw [List.find?_eq_none.mpr hnone, Option.map_none]

end Retrofit.Dictionary

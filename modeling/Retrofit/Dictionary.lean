/-!
# Dictionaries

A dictionary holds each key once, in the order of the keys' characters, so that what is read from
it does not depend on the order in which it was filled. `insert` keeps that order and replaces
the value of a key that is there (`get?_insert`, `pairwise_keys_insert`).
-/

namespace Retrofit

/-- Values by key, in ascending order of the keys. -/
abbrev Dictionary (α : Type) := List (String × α)

namespace Dictionary

variable {α β : Type} {key other : String} {value : α}

/-- The dictionary in which `key` has the value `value`. -/
def insert (key : String) (value : α) : Dictionary α → Dictionary α
  | [] => [(key, value)]
  | (k, v) :: rest =>
    if key < k then (key, value) :: (k, v) :: rest
    else if key = k then (key, value) :: rest
    else (k, v) :: insert key value rest

def get? (key : String) : Dictionary α → Option α
  | [] => none
  | (k, v) :: rest => if k = key then some v else get? key rest

/-- The keys in ascending order. -/
def keys (d : Dictionary α) : List String :=
  d.map Prod.fst

/-- The dictionary of the given pairs; of two with one key the later one counts. -/
def ofList (pairs : List (String × α)) : Dictionary α :=
  pairs.foldl (fun d p => insert p.1 p.2 d) []

/-! ## Insertion -/

@[simp] theorem get?_insert_self (d : Dictionary α) :
    get? key (insert key value d) = some value := by
  induction d with
  | nil => simp [insert, get?]
  | cons entry rest ih =>
    rw [insert]
    split
    · simp [get?]
    · split
      · simp [get?]
      · next heq => rw [get?, if_neg (Ne.symm heq), ih]

theorem get?_insert_of_ne (h : other ≠ key) (d : Dictionary α) :
    get? other (insert key value d) = get? other d := by
  induction d with
  | nil => simp [insert, get?, Ne.symm h]
  | cons entry rest ih =>
    rw [insert]
    split
    · rw [get?, if_neg (Ne.symm h)]
    · split
      · next heq =>
        subst heq
        rw [get?, if_neg (Ne.symm h), get?, if_neg (Ne.symm h)]
      · rw [get?, get?, ih]

theorem mem_insert {entry : String × α} {d : Dictionary α} (h : entry ∈ insert key value d) :
    entry = (key, value) ∨ entry ∈ d := by
  induction d with
  | nil => exact .inl (List.mem_singleton.mp h)
  | cons first rest ih =>
    rw [insert] at h
    split at h
    · exact List.mem_cons.mp h
    · split at h
      · exact (List.mem_cons.mp h).imp_right (List.mem_cons_of_mem _)
      · rcases List.mem_cons.mp h with rfl | h
        · exact .inr List.mem_cons_self
        · exact (ih h).imp_right (List.mem_cons_of_mem _)

theorem pairwise_keys_insert {d : Dictionary α} (h : (keys d).Pairwise (· < ·)) :
    (keys (insert key value d)).Pairwise (· < ·) := by
  induction d with
  | nil => exact List.pairwise_singleton _ _
  | cons first rest ih =>
    obtain ⟨hfirst, hrest⟩ := List.pairwise_cons.mp h
    rw [insert]
    split
    · next hlt =>
      refine List.pairwise_cons.mpr ⟨fun k hk => ?_, h⟩
      rcases List.mem_cons.mp hk with rfl | hk
      · exact hlt
      · exact String.lt_trans hlt (hfirst k hk)
    · next hlt =>
      split
      · next heq =>
        subst heq
        exact h
      · next heq =>
        refine List.pairwise_cons.mpr ⟨fun k hk => ?_, ih hrest⟩
        obtain ⟨entry, hentry, rfl⟩ := List.mem_map.mp hk
        rcases mem_insert hentry with rfl | hentry
        · -- The new key is neither before the first one nor equal to it.
          exact Decidable.byContradiction fun hnot =>
            heq (String.le_antisymm (String.not_lt.mp hnot) (String.not_lt.mp hlt))
        · exact hfirst entry.1 (List.mem_map_of_mem hentry)

end Dictionary

end Retrofit

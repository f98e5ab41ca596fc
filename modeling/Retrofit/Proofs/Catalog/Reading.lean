import Mathlib.Data.List.Nodup
import Mathlib.Tactic.SplitIfs
import Retrofit.Catalog.Shape
import Retrofit.Proofs.Json.Shape

/-!
# The patch sets of a catalog that was read

A patch set that was read has each key once, and files to add under the key `_add` and nowhere else
(`wellFormed_of_ofText`). So the keys other than `_add` are those of patched files, and each of them
tells its transforms (`transformsFor?_eq_some_iff`).
-/

namespace Retrofit

namespace PatchSet

variable {set : PatchSet} {key file : String} {patch : FilePatch}
  {entries : List (String × FilePatch)} {steps : List Transform}

/-- The keys in document order. -/
def keys (set : PatchSet) : List String :=
  set.entries.map Prod.fst

/-- Each key stands once, and what stands under it is files to add exactly if it is `_add`. -/
structure WellFormed (set : PatchSet) : Prop where
  nodup : set.keys.Nodup
  add_iff : ∀ key patch, (key, patch) ∈ set.entries → ((∃ files, patch = .add files) ↔ key = addKey)

/-! ## Insertion -/

theorem mem_insertEntry {entry : String × FilePatch} (h : entry ∈ insertEntry key patch entries) :
    entry = (key, patch) ∨ entry ∈ entries := by
  induction entries with
  | nil => exact .inl (List.mem_singleton.mp h)
  | cons first rest ih =>
    rw [insertEntry] at h
    split_ifs at h with heq
    · exact (List.mem_cons.mp h).imp (fun h => by rw [h, heq]) (List.mem_cons_of_mem first)
    · rcases List.mem_cons.mp h with rfl | h
      · exact .inr (List.mem_cons_self ..)
      · exact (ih h).imp_right (List.mem_cons_of_mem first)

theorem nodup_insertEntry (h : (entries.map Prod.fst).Nodup) :
    ((insertEntry key patch entries).map Prod.fst).Nodup := by
  induction entries with
  | nil => exact List.nodup_singleton key
  | cons first rest ih =>
    obtain ⟨hfresh, hrest⟩ := List.nodup_cons.mp h
    rw [insertEntry]
    split_ifs with heq
    · exact h
    · refine List.nodup_cons.mpr ⟨fun hmem => ?_, ih hrest⟩
      obtain ⟨entry, hentry, hkey⟩ := List.mem_map.mp hmem
      rcases mem_insertEntry hentry with rfl | hentry
      · exact heq hkey.symm
      · exact hfresh (List.mem_map.mpr ⟨entry, hentry, hkey⟩)

theorem WellFormed.insert (h : set.WellFormed)
    (hadd : (∃ files, patch = .add files) ↔ key = addKey) : (set.insert key patch).WellFormed where
  nodup := nodup_insertEntry h.nodup
  add_iff key' patch' hmem := by
    rcases mem_insertEntry hmem with heq | hmem
    · cases heq
      exact hadd
    · exact h.add_iff key' patch' hmem

theorem wellFormed_ofList {pairs : List (String × FilePatch)}
    (h : ∀ key patch, (key, patch) ∈ pairs → ((∃ files, patch = .add files) ↔ key = addKey)) :
    (ofList pairs).WellFormed := by
  rw [ofList, List.foldl_eq_foldr_reverse]
  replace h : ∀ key patch, (key, patch) ∈ pairs.reverse →
      ((∃ files, patch = .add files) ↔ key = addKey) :=
    fun key patch hmem => h key patch (List.mem_reverse.mp hmem)
  generalize pairs.reverse = reversed at h ⊢
  induction reversed with
  | nil => exact ⟨List.nodup_nil, fun _ _ hmem => by cases hmem⟩
  | cons last front ih =>
    have hfront := ih fun key patch hmem => h key patch (List.mem_cons_of_mem last hmem)
    exact hfront.insert (h last.1 last.2 (List.mem_cons_self ..))

/-! ## Looking up -/

theorem entryTransforms?_eq_some_iff {entry : String × FilePatch} :
    entryTransforms? file entry = some steps ↔ entry = (file, .transforms steps) := by
  obtain ⟨key, patch⟩ := entry
  cases patch with
  | add files => simp [entryTransforms?]
  | transforms steps' =>
    simp only [entryTransforms?, Option.ite_none_right_eq_some, Option.some.injEq, Prod.mk.injEq,
      FilePatch.transforms.injEq]

/-- A file goes through the transforms that stand under its name. -/
theorem WellFormed.transformsFor?_eq_some_iff (h : set.WellFormed) :
    set.transformsFor? file = some steps ↔ (file, .transforms steps) ∈ set.entries := by
  constructor
  · intro hfound
    obtain ⟨entry, hmem, hentry⟩ := List.exists_of_findSome?_eq_some hfound
    rwa [entryTransforms?_eq_some_iff.mp hentry] at hmem
  · intro hmem
    have hsome : (set.transformsFor? file).isSome = true := by
      rw [transformsFor?, List.findSome?_isSome_iff]
      exact ⟨_, hmem, by rw [entryTransforms?_eq_some_iff.mpr rfl]; rfl⟩
    obtain ⟨found, hfound⟩ := Option.isSome_iff_exists.mp hsome
    obtain ⟨entry, hentry, heq⟩ := List.exists_of_findSome?_eq_some hfound
    rw [entryTransforms?_eq_some_iff.mp heq] at hentry
    -- The two entries have one key.
    have hsame : (file, FilePatch.transforms found) = (file, .transforms steps) :=
      List.inj_on_of_nodup_map h.nodup hentry hmem rfl
    rw [hfound]
    cases hsame
    rfl

/-- The keys of patched files are those other than `_add`. -/
theorem WellFormed.exists_transforms_iff (h : set.WellFormed) :
    (∃ steps, (file, .transforms steps) ∈ set.entries) ↔ file ∈ set.keys ∧ file ≠ addKey := by
  constructor
  · rintro ⟨steps, hmem⟩
    refine ⟨List.mem_map_of_mem hmem, fun heq => ?_⟩
    obtain ⟨files, hfiles⟩ := (h.add_iff file _ hmem).mpr heq
    cases hfiles
  · rintro ⟨hkey, hne⟩
    obtain ⟨⟨key, patch⟩, hmem, rfl⟩ := List.mem_map.mp hkey
    cases patch with
    | transforms steps => exact ⟨steps, hmem⟩
    | add files => exact absurd ((h.add_iff key _ hmem).mp ⟨files, rfl⟩) hne

end PatchSet

/-! ## Reading -/

variable {o : Origin} {d : Draft}

theorem FilePatch.add_iff_of_shape {key : String} {patch : FilePatch}
    (h : shape key o d = .ok patch) :
    (∃ files, patch = .add files) ↔ key = PatchSet.addKey := by
  unfold shape at h
  split_ifs at h with hkey
  · obtain ⟨files, -, rfl⟩ := map_eq_ok.mp h
    exact iff_of_true ⟨files, rfl⟩ hkey
  · obtain ⟨steps, -, rfl⟩ := map_eq_ok.mp h
    refine iff_of_false ?_ hkey
    rintro ⟨files, hfiles⟩
    cases hfiles

theorem PatchSet.wellFormed_of_shape {set : PatchSet} (h : shape o d = .ok set) :
    set.WellFormed := by
  obtain ⟨pairs, hpairs, rfl⟩ := map_eq_ok.mp h
  refine wellFormed_ofList fun key patch hmem => ?_
  obtain ⟨inner, draft, hread⟩ := Shape.exists_of_pairs hpairs hmem
  exact FilePatch.add_iff_of_shape hread

/-- **The patch sets of a catalog that was read are well formed.** -/
theorem Catalog.wellFormed_of_ofText {source : String} {catalog : Catalog} {name version : String}
    {set : PatchSet} (h : ofText source = .ok catalog)
    (hset : catalog.patchesFor? name version = some set) : set.WellFormed := by
  obtain ⟨versions, hversions, hset⟩ := Option.bind_eq_some_iff.mp hset
  obtain ⟨o, d, hread⟩ := Shape.exists_of_ofText h
  obtain ⟨o, d, hread⟩ := Shape.exists_of_dictionary hread (Dictionary.mem_of_get? hversions)
  obtain ⟨o, d, hread⟩ := Shape.exists_of_dictionary hread (Dictionary.mem_of_get? hset)
  exact PatchSet.wellFormed_of_shape hread

end Retrofit

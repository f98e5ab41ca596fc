import Mathlib.Data.List.Nodup
import Retrofit.Package.Flatten
import Retrofit.Proofs.Dependency.Visits
import Retrofit.Proofs.Dictionary

/-!
# Laws of the package map

**Places.** The index of a map has the place of each name (`indexOf?_eq_some_iff`), so names are
distinct (`nodup_names`), and the entries of a map are what can be looked up in it
(`mem_entries_iff`). The names in their order and what they have make a map (`eq_of_names_of_get?`).

**Insertion.** The inserted name has the inserted record, and other names have what they had
(`get?_insert_self`, `get?_insert_of_ne`). A known name keeps its place and a new one stands at the
end (`names_insert`). Of several records for a name the last one counts (`get?_insertAll`), and the
first one decides the place (`names_insertAll`).

**Flattening.** A name that a walk comes to has the record of the last visit, and any other name has
what it had (`get?_flatten`). Which visit is the last does not matter where all of them come to the
same metadata (`get?_flatten_of_mem`). The map gets the names that the walk comes to
(`contains_flatten`). A map that was flattened from nothing holds records of metadata
only (`exists_ofInfo_of_mem_flatten`).
-/

namespace Retrofit.PackageMap

variable {map map' : PackageMap} {name other : String} {record : PackageRecord} {place : Nat}

/-! ## Places -/

theorem indexOf?_eq_some_iff : map.indexOf? name = some place ↔ map.names[place]? = some name :=
  map.valid.indexOf?_eq_some_iff name place

theorem exists_indexOf?_iff : (∃ place, map.indexOf? name = some place) ↔ name ∈ map.names := by
  rw [List.mem_iff_getElem?]
  exact exists_congr fun _ => indexOf?_eq_some_iff

theorem indexOf?_eq_none_iff : map.indexOf? name = none ↔ name ∉ map.names := by
  rw [← exists_indexOf?_iff, Option.eq_none_iff_forall_ne_some, not_exists]

/-- Two places of one name are the same, since the index has only one. -/
theorem nodup_names (map : PackageMap) : map.names.Nodup := by
  refine List.nodup_iff_getElem?_ne_getElem?.mpr fun i j hlt hj heq => ?_
  have hname : map.names[j]? = some map.names[j] := List.getElem?_eq_getElem hj
  have hi := indexOf?_eq_some_iff.mpr (heq.trans hname)
  rw [indexOf?_eq_some_iff.mpr hname] at hi
  exact absurd (Option.some.inj hi) (Nat.ne_of_gt hlt)

theorem indexOf?_of_getElem? {entry : String × PackageRecord}
    (h : map.entries[place]? = some entry) :
    map.indexOf? entry.1 = some place := by
  rw [indexOf?_eq_some_iff, PackageTable.names, List.getElem?_map, h]
  rfl

theorem exists_getElem?_of_indexOf? (h : map.indexOf? name = some place) :
    ∃ record, map.entries[place]? = some (name, record) := by
  rw [indexOf?_eq_some_iff, PackageTable.names, List.getElem?_map, Option.map_eq_some_iff] at h
  obtain ⟨entry, hentry, rfl⟩ := h
  exact ⟨entry.2, hentry⟩

/-- The record of a name is the one that stands at its place. -/
theorem get?_eq_some_iff_getElem? (h : map.indexOf? name = some place) :
    map.get? name = some record ↔ map.entries[place]? = some (name, record) := by
  obtain ⟨old, hold⟩ := exists_getElem?_of_indexOf? h
  simp [PackageTable.get?, h, hold]

/-- The entries of a map are what can be looked up in it. -/
theorem mem_entries_iff : (name, record) ∈ map.entries ↔ map.get? name = some record := by
  constructor
  · intro hmem
    obtain ⟨place, hentry⟩ := List.mem_iff_getElem?.mp hmem
    exact (get?_eq_some_iff_getElem? (indexOf?_of_getElem? hentry)).mpr hentry
  · intro hget
    obtain ⟨place, hplace, -⟩ := Option.bind_eq_some_iff.mp hget
    exact List.mem_of_getElem? ((get?_eq_some_iff_getElem? hplace).mp hget)

theorem exists_get?_iff : (∃ record, map.get? name = some record) ↔ name ∈ map.names := by
  simp [← mem_entries_iff, PackageTable.names]

theorem contains_eq_isSome (map : PackageMap) (name : String) :
    map.contains name = (map.get? name).isSome := by
  rw [PackageTable.contains, Bool.eq_iff_iff, Option.isSome_iff_exists, Option.isSome_iff_exists,
    exists_indexOf?_iff, exists_get?_iff]

@[simp] theorem contains_empty (name : String) : empty.contains name = false := rfl

theorem getElem?_entries_eq_some_iff : map.entries[place]? = some (name, record) ↔
    map.names[place]? = some name ∧ map.get? name = some record := by
  rw [← indexOf?_eq_some_iff]
  constructor
  · intro hentry
    have hplace := indexOf?_of_getElem? hentry
    exact ⟨hplace, (get?_eq_some_iff_getElem? hplace).mpr hentry⟩
  · rintro ⟨hplace, hget⟩
    exact (get?_eq_some_iff_getElem? hplace).mp hget

/-- Two maps with the same names in the same order, and the same records for them, are the same. -/
theorem eq_of_names_of_get? (hnames : map.names = map'.names)
    (hget : ∀ name, map.get? name = map'.get? name) : map = map' := by
  have hentries : map.entries = map'.entries := by
    refine List.ext_getElem? fun place => Option.ext fun ⟨name, record⟩ => ?_
    rw [getElem?_entries_eq_some_iff, getElem?_entries_eq_some_iff, hnames, hget]
  have hindex : map.index = map'.index := by
    refine Dictionary.eq_of_get?_eq map.valid.sorted map'.valid.sorted fun name =>
      Option.ext fun place => ?_
    exact indexOf?_eq_some_iff.trans (hnames ▸ indexOf?_eq_some_iff.symm)
  obtain ⟨⟨entries, index⟩, valid⟩ := map
  obtain ⟨⟨entries', index'⟩, valid'⟩ := map'
  obtain rfl : entries = entries' := hentries
  obtain rfl : index = index' := hindex
  rfl

/-! ## Insertion -/

theorem entries_insert_of_known (h : map.indexOf? name = some place) :
    (map.insert name record).entries = map.entries.modify place fun entry => (entry.1, record) :=
  congrArg (fun inserted => inserted.2.entries) (PackageTable.getThenInsert?_of_known h)

theorem entries_insert_of_new (h : map.indexOf? name = none) :
    (map.insert name record).entries = map.entries ++ [(name, record)] :=
  congrArg (fun inserted => inserted.2.entries) (PackageTable.getThenInsert?_of_new h)

theorem names_insert (map : PackageMap) :
    (map.insert name record).names =
      if name ∈ map.names then map.names else map.names ++ [name] := by
  cases hknown : map.indexOf? name with
  | some place =>
    rw [if_pos (exists_indexOf?_iff.mp ⟨place, hknown⟩), PackageTable.names,
      entries_insert_of_known hknown, PackageTable.map_fst_modify, PackageTable.names]
  | none =>
    rw [if_neg (indexOf?_eq_none_iff.mp hknown), PackageTable.names, entries_insert_of_new hknown,
      List.map_append, PackageTable.names, List.map_singleton]

theorem fst_eq_iff_of_getElem? {entry : String × PackageRecord} {i : Nat}
    (h : map.indexOf? name = some place) (hentry : map.entries[i]? = some entry) :
    entry.1 = name ↔ place = i := by
  constructor
  · rintro rfl
    rw [indexOf?_of_getElem? hentry] at h
    exact (Option.some.inj h).symm
  · rintro rfl
    obtain ⟨record, hrecord⟩ := exists_getElem?_of_indexOf? h
    rw [hrecord] at hentry
    rw [← Option.some.inj hentry]

/-- What an insertion leaves of the entries: those of other names, and one for the name. -/
theorem mem_entries_insert {entry : String × PackageRecord} :
    entry ∈ (map.insert name record).entries ↔
      entry = (name, record) ∨ entry ∈ map.entries ∧ entry.1 ≠ name := by
  cases hknown : map.indexOf? name with
  | none =>
    have hnew : entry ∈ map.entries → entry.1 ≠ name := by
      rintro hentry rfl
      exact indexOf?_eq_none_iff.mp hknown (List.mem_map_of_mem hentry)
    rw [entries_insert_of_new hknown, List.mem_append, List.mem_singleton, or_comm,
      and_iff_left_of_imp hnew]
  | some place =>
    rw [entries_insert_of_known hknown]
    simp only [List.mem_iff_getElem?, List.getElem?_modify, Option.map_eq_map,
      Option.map_eq_some_iff]
    constructor
    · rintro ⟨i, old, hold, rfl⟩
      have hname := fst_eq_iff_of_getElem? hknown hold
      by_cases hplace : place = i
      · left
        rw [if_pos hplace, hname.mpr hplace]
      · right
        rw [if_neg hplace]
        exact ⟨⟨i, hold⟩, mt hname.mp hplace⟩
    · rintro (rfl | ⟨⟨i, hentry⟩, hother⟩)
      · obtain ⟨old, hold⟩ := exists_getElem?_of_indexOf? hknown
        exact ⟨place, (name, old), hold, if_pos rfl⟩
      · have hplace := mt (fst_eq_iff_of_getElem? hknown hentry).mpr hother
        exact ⟨i, entry, hentry, if_neg hplace⟩

@[simp] theorem get?_insert_self (map : PackageMap) :
    (map.insert name record).get? name = some record :=
  mem_entries_iff.mp (mem_entries_insert.mpr (.inl rfl))

theorem get?_insert_of_ne (h : other ≠ name) (map : PackageMap) :
    (map.insert name record).get? other = map.get? other := by
  refine Option.ext fun found => ?_
  rw [← mem_entries_iff, ← mem_entries_iff, mem_entries_insert]
  simp [h]

/-! ## Insertions one after the other -/

variable {records : List (String × PackageRecord)}

/-- The new names stand behind the old ones, in the order of their first insertions. -/
theorem names_insertAll (map : PackageMap) (records : List (String × PackageRecord)) :
    (map.insertAll records).names =
      map.names ++ ((records.map Prod.fst).filter (· ∉ map.names)).eraseDups := by
  rw [insertAll]
  induction records generalizing map with
  | nil => simp
  | cons entry rest ih =>
    rw [List.foldl_cons, ih, names_insert, List.map_cons]
    by_cases hmem : entry.1 ∈ map.names
    · rw [if_pos hmem, List.filter_cons_of_neg (by simpa using hmem)]
    · have hrest : (rest.map Prod.fst).filter (· ∉ map.names ++ [entry.1]) =
          ((rest.map Prod.fst).filter (· ∉ map.names)).filter (! · == entry.1) := by
        rw [List.filter_filter]
        refine List.filter_congr fun name _ => ?_
        by_cases heq : name = entry.1 <;> simp [heq]
      rw [if_neg hmem, List.filter_cons_of_pos (by simpa using hmem), List.eraseDups_cons, hrest,
        List.append_assoc, List.singleton_append]

theorem findRev?_of_last {α : Type} {front rest : List (String × α)} {value : α}
    (hlast : ∀ other, (name, other) ∉ rest) :
    (front ++ (name, value) :: rest).findRev? (·.1 == name) = some (name, value) := by
  have hrest : rest.reverse.find? (·.1 == name) = none := by
    rw [List.find?_eq_none]
    rintro ⟨first, other⟩ hmem hname
    obtain rfl : first = name := by simpa using hname
    exact hlast other (List.mem_reverse.mp hmem)
  rw [List.findRev?_eq_find?_reverse, List.reverse_append, List.reverse_cons, List.append_assoc,
    List.find?_append, hrest, Option.none_or]
  exact List.find?_cons_of_pos BEq.rfl

/-- The last record of a name counts. -/
theorem get?_insertAll (map : PackageMap) (records : List (String × PackageRecord)) :
    (map.insertAll records).get? name =
      ((records.findRev? (·.1 == name)).map Prod.snd).or (map.get? name) := by
  rw [insertAll, List.findRev?_eq_find?_reverse, List.foldl_eq_foldr_reverse]
  -- Behind the other records, the last one decides if it is of this name.
  induction records.reverse with
  | nil => rfl
  | cons last front ih =>
    rw [List.foldr_cons]
    by_cases heq : last.1 = name
    · subst heq
      rw [List.find?_cons_of_pos (by simp), get?_insert_self]
      rfl
    · rw [List.find?_cons_of_neg (by simpa using heq), get?_insert_of_ne (Ne.symm heq), ih]

/-! ## Flattening -/

variable {catalog : Catalog} {directory : String} {tree : Dependencies}

/-- Flattening puts in a record for each visit. -/
theorem foldl_visit_eq_insertAll (map : PackageMap) (visits : List (String × Dependency)) :
    visits.foldl (visit catalog directory) map = map.insertAll (visits.map fun visited =>
      (visited.1, PackageRecord.ofInfo catalog directory visited.1 visited.2.info)) := by
  rw [insertAll, List.foldl_map]
  rfl

/-- A name that a walk comes to has the record of the last visit. -/
theorem get?_flatten (map : PackageMap) :
    (map.flatten catalog directory tree).get? name =
      ((tree.visits.findRev? (·.1 == name)).map fun visited =>
        PackageRecord.ofInfo catalog directory name visited.2.info).or (map.get? name) := by
  rw [flatten, foldl_visit_eq_insertAll, get?_insertAll, List.findRev?_eq_find?_reverse,
    ← List.map_reverse, List.find?_map, Option.map_map, List.findRev?_eq_find?_reverse]
  congr 1
  refine Option.map_congr fun visited hvisited => ?_
  have hname : visited.1 = name := by simpa using List.find?_some hvisited
  rw [← hname]
  rfl

theorem findRev?_visits {visited : String × Dependency}
    (h : tree.visits.findRev? (·.1 == name) = some visited) : (name, visited.2) ∈ tree.visits := by
  rw [List.findRev?_eq_find?_reverse] at h
  have hname : visited.1 = name := by simpa using List.find?_some h
  rw [← hname]
  exact List.mem_reverse.mp (List.mem_of_find?_eq_some h)

theorem get?_flatten_of_notMem (map : PackageMap) (h : ∀ node, (name, node) ∉ tree.visits) :
    (map.flatten catalog directory tree).get? name = map.get? name := by
  rw [get?_flatten]
  cases hlast : tree.visits.findRev? (·.1 == name) with
  | none => rfl
  | some visited => exact absurd (findRev?_visits hlast) (h visited.2)

/-- Where all visits of a name come to the same metadata, it does not matter which is the last. -/
theorem get?_flatten_of_mem (map : PackageMap) {node : Dependency} (h : (name, node) ∈ tree.visits)
    (hall : ∀ node', (name, node') ∈ tree.visits → node'.info = node.info) :
    (map.flatten catalog directory tree).get? name =
      some (PackageRecord.ofInfo catalog directory name node.info) := by
  rw [get?_flatten]
  cases hlast : tree.visits.findRev? (·.1 == name) with
  | none =>
    rw [List.findRev?_eq_find?_reverse, List.find?_eq_none] at hlast
    exact absurd BEq.rfl (hlast (name, node) (List.mem_reverse.mpr h))
  | some visited =>
    rw [Option.map_some, hall visited.2 (findRev?_visits hlast)]
    rfl

/-- A walk adds the names that it comes to. -/
theorem contains_flatten :
    (map.flatten catalog directory tree).contains name = true ↔
      tree.Has name ∨ map.contains name = true := by
  by_cases h : tree.Has name
  · obtain ⟨node, hnode⟩ := Dependencies.has_iff_exists_mem_visits.mp h
    have hlast : (tree.visits.findRev? (·.1 == name)).isSome = true := by
      rw [List.findRev?_eq_find?_reverse, List.find?_isSome]
      exact ⟨(name, node), List.mem_reverse.mpr hnode, BEq.rfl⟩
    rw [contains_eq_isSome, get?_flatten, Option.isSome_or, Option.isSome_map, hlast]
    simp [h]
  · have hnone : ∀ node, (name, node) ∉ tree.visits := fun node hmem =>
      h (Dependencies.has_iff_exists_mem_visits.mpr ⟨node, hmem⟩)
    rw [contains_eq_isSome, get?_flatten_of_notMem map hnone, contains_eq_isSome]
    simp [h]

/-- Every record of a map that was flattened from nothing is made from metadata. -/
theorem exists_ofInfo_of_mem_flatten
    (h : (name, record) ∈ (empty.flatten catalog directory tree).entries) :
    ∃ info, record = PackageRecord.ofInfo catalog directory name info := by
  have hget := mem_entries_iff.mp h
  rw [get?_flatten] at hget
  cases hlast : tree.visits.findRev? (·.1 == name) with
  | none =>
    rw [hlast] at hget
    cases hget
  | some visited =>
    rw [hlast] at hget
    exact ⟨visited.2.info, (Option.some.inj hget).symm⟩

end Retrofit.PackageMap

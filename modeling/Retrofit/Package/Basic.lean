import Retrofit.Catalog.Basic

/-!
# Packages

A package record says which version is installed, which files the build takes from it, and which
patches apply. The package map holds one record per name, in the order in which the names came up;
a new record for a known name takes the place of the old one.

The map stores its entries, and an index from which the place of a name is read. An insertion
changes the one or both of them, and keeps the index right (`PackageTable.Valid.getThenInsert?`).
-/

namespace Retrofit

/-- An installed package. -/
structure PackageRecord where
  version : String
  /-- Relative to the directory of the package, in build order. -/
  files : List String
  patches : Option PatchSet
deriving DecidableEq, Repr

namespace PackageRecord

/-- The transforms that a file goes through, if it is patched. -/
def transformsFor? (r : PackageRecord) (file : String) : Option (List Transform) :=
  r.patches.bind (·.transformsFor? file)

def isPatched (r : PackageRecord) (file : String) : Bool :=
  (r.transformsFor? file).isSome

/-- The patched files with their transforms, in build order. -/
def patchedFiles (r : PackageRecord) : List (String × List Transform) :=
  r.files.filterMap fun file => (r.transformsFor? file).map (file, ·)

end PackageRecord

/-! ## Tables -/

/-- Package records with an index of their places. -/
structure PackageTable where
  /-- In the order of the first insertions. -/
  entries : List (String × PackageRecord)
  /-- The place of each name among the entries. -/
  index : Dictionary Nat
deriving DecidableEq, Repr

namespace PackageTable

def empty : PackageTable := ⟨[], []⟩

/-- The names in the order of the entries. -/
def names (table : PackageTable) : List String :=
  table.entries.map Prod.fst

/-- The place of a name, as the index has it. -/
def indexOf? (table : PackageTable) (name : String) : Option Nat :=
  Dictionary.get? name table.index

/-- The record at the place of a name. -/
def get? (table : PackageTable) (name : String) : Option PackageRecord := do
  let place ← table.indexOf? name
  let entry ← table.entries[place]?
  return entry.2

/-- Whether a name has a place. -/
def contains (table : PackageTable) (name : String) : Bool :=
  (table.indexOf? name).isSome

/-- The number of packages. -/
def size (table : PackageTable) : Nat :=
  table.entries.length

/-- The record that a name had, and the table in which it has the given one: in its place if it has
one, and at the end if not. -/
def getThenInsert? (table : PackageTable) (name : String) (record : PackageRecord) :
    Option PackageRecord × PackageTable :=
  match table.indexOf? name with
  | some place =>
    (table.entries[place]?.map Prod.snd,
      { table with entries := table.entries.modify place fun entry => (entry.1, record) })
  | none =>
    (none, ⟨table.entries ++ [(name, record)],
      Dictionary.insert name table.entries.length table.index⟩)

/-- Whether the index has the places of the names, and no others. -/
structure Valid (table : PackageTable) : Prop where
  indexOf?_eq_some_iff : ∀ name place,
    table.indexOf? name = some place ↔ table.names[place]? = some name
  sorted : (Dictionary.keys table.index).Pairwise (· < ·)

theorem valid_empty : empty.Valid where
  indexOf?_eq_some_iff _ _ := by simp [indexOf?, names, empty, Dictionary.get?]
  sorted := .nil

variable {table : PackageTable} {name : String} {record : PackageRecord} {place : Nat}

theorem getThenInsert?_of_known (h : table.indexOf? name = some place) :
    table.getThenInsert? name record =
      (table.entries[place]?.map Prod.snd,
        { table with entries := table.entries.modify place fun entry => (entry.1, record) }) := by
  rw [getThenInsert?, h]

theorem getThenInsert?_of_new (h : table.indexOf? name = none) :
    table.getThenInsert? name record =
      (none, ⟨table.entries ++ [(name, record)],
        Dictionary.insert name table.entries.length table.index⟩) := by
  rw [getThenInsert?, h]

/-- A record is replaced under the same name. -/
theorem map_fst_modify (entries : List (String × PackageRecord)) :
    (entries.modify place fun entry => (entry.1, record)).map Prod.fst = entries.map Prod.fst := by
  refine List.ext_getElem? fun i => ?_
  rw [List.getElem?_map, List.getElem?_map, List.getElem?_modify]
  cases entries[i]? with
  | none => rfl
  | some entry => by_cases hplace : place = i <;> simp [hplace]

theorem getElem?_concat_eq_some_iff {names : List String} {new other : String} {i : Nat} :
    (names ++ [new])[i]? = some other ↔
      names[i]? = some other ∨ i = names.length ∧ new = other := by
  rw [List.getElem?_append]
  split
  · next hlt => simp [Nat.ne_of_lt hlt]
  · next hlt =>
    have hnone : names[i]? = none := List.getElem?_eq_none (Nat.not_lt.mp hlt)
    rw [hnone, List.getElem?_singleton]
    split <;> simp <;> omega

/-- An insertion keeps the index right. -/
theorem Valid.getThenInsert? (h : table.Valid) (name : String) (record : PackageRecord) :
    (table.getThenInsert? name record).2.Valid := by
  cases hknown : table.indexOf? name with
  | some place =>
    rw [getThenInsert?_of_known hknown]
    refine ⟨fun other i => ?_, h.sorted⟩
    rw [names, map_fst_modify]
    exact h.indexOf?_eq_some_iff other i
  | none =>
    rw [getThenInsert?_of_new hknown]
    refine ⟨fun other i => ?_, Dictionary.pairwise_keys_insert h.sorted⟩
    rw [names, List.map_append, List.map_singleton, getElem?_concat_eq_some_iff, List.length_map,
      ← names, ← h.indexOf?_eq_some_iff, indexOf?]
    by_cases hsame : other = name
    · subst hsame
      simp [hknown, eq_comm]
    · rw [Dictionary.get?_insert_of_ne hsame]
      simp [indexOf?, Ne.symm hsame]

end PackageTable

/-! ## Maps -/

/-- Package records by name, in the order of the first insertions. -/
structure PackageMap extends PackageTable where
  valid : toPackageTable.Valid
deriving DecidableEq, Repr

namespace PackageMap

def empty : PackageMap := ⟨.empty, PackageTable.valid_empty⟩

/-- The record that a name had, and the map in which it has the given one. -/
def getThenInsert? (map : PackageMap) (name : String) (record : PackageRecord) :
    Option PackageRecord × PackageMap :=
  let inserted := map.toPackageTable.getThenInsert? name record
  (inserted.1, ⟨inserted.2, map.valid.getThenInsert? name record⟩)

/-- The map in which `name` has the record. -/
def insert (map : PackageMap) (name : String) (record : PackageRecord) : PackageMap :=
  (map.getThenInsert? name record).2

/-- The map with records that are put in one after the other. -/
def insertAll (map : PackageMap) (records : List (String × PackageRecord)) : PackageMap :=
  records.foldl (fun map entry => map.insert entry.1 entry.2) map

/-- The map of records that are put in one after the other. -/
def ofList (records : List (String × PackageRecord)) : PackageMap :=
  empty.insertAll records

end PackageMap

end Retrofit

import Retrofit.Proofs.Package.Map

/-!
# A map in the order of its insertions

**Theorem (`ordered_ofList`).** Put records into an empty map one after the other. Then the index
has a place among the entries for each name, and the entry there is that of the name. The names are
distinct and stand in the order of their first insertions. A name has the record that was put in
last, and a name that was not put in has none. The next insertion gives back what the name has.

That the index is right is no more than what an insertion keeps
(`PackageTable.Valid.getThenInsert?`): a known name changes a record at its place, and a new one
adds the place behind the last entry. The rest follows from what one insertion does to the names and
to the records.
-/

namespace Retrofit.PackageMap

variable {map : PackageMap} {name : String} {record : PackageRecord}
  {records : List (String × PackageRecord)}

/-! ## What an insertion gives back -/

/-- An insertion gives back the record that the name had. -/
theorem fst_getThenInsert? (map : PackageMap) (name : String) (record : PackageRecord) :
    (map.getThenInsert? name record).1 = map.get? name := by
  change (map.toPackageTable.getThenInsert? name record).1 = map.get? name
  cases hknown : map.indexOf? name with
  | some place =>
    rw [PackageTable.getThenInsert?_of_known hknown, PackageTable.get?, hknown, Option.map_eq_bind]
    rfl
  | none =>
    rw [PackageTable.getThenInsert?_of_new hknown, PackageTable.get?, hknown]
    rfl

/-! ## Records put in one after the other -/

theorem names_ofList (records : List (String × PackageRecord)) :
    (ofList records).names = (records.map Prod.fst).eraseDups := by
  have hnone : empty.names = [] := rfl
  rw [ofList, names_insertAll, hnone]
  simp

theorem get?_ofList (records : List (String × PackageRecord)) :
    (ofList records).get? name = (records.findRev? (·.1 == name)).map Prod.snd := by
  have hnone : empty.get? name = none := rfl
  rw [ofList, get?_insertAll, hnone, Option.or_none]

theorem get?_ofList_of_last {front rest : List (String × PackageRecord)}
    (hlast : ∀ other, (name, other) ∉ rest) :
    (ofList (front ++ (name, record) :: rest)).get? name = some record := by
  rw [get?_ofList, findRev?_of_last hlast]
  rfl

/-- What a map holds if the records were put into an empty one, one after the other. -/
structure Ordered (records : List (String × PackageRecord)) (map : PackageMap) : Prop where
  /-- A place in the index is one of the entries, and the entry has the name. -/
  index : ∀ name place, Dictionary.get? name map.index = some place →
    ∃ hplace : place < map.entries.length, map.entries[place].1 = name
  /-- All names that were put in have a place. -/
  indexed : ∀ name ∈ records.map Prod.fst, ∃ place, Dictionary.get? name map.index = some place
  distinct : map.names.Nodup
  /-- The names stand in the order of their first insertions. -/
  names : map.names = (records.map Prod.fst).eraseDups
  /-- A name has the record that was put in last. -/
  last : ∀ {front rest name record}, records = front ++ (name, record) :: rest →
    (∀ other, (name, other) ∉ rest) → map.get? name = some record
  /-- A name that was not put in has none. -/
  absent : ∀ name, name ∉ records.map Prod.fst → map.get? name = none
  contains : ∀ name, map.contains name = (map.get? name).isSome
  /-- A name counts once, however often it was put in. -/
  size : map.size = (records.map Prod.fst).eraseDups.length
  /-- The next insertion gives back what the name has. -/
  previous : ∀ name record, (map.getThenInsert? name record).1 = map.get? name

/-- **A map keeps the order of its insertions.** -/
theorem ordered_ofList (records : List (String × PackageRecord)) :
    Ordered records (ofList records) := by
  have hmem (name : String) : name ∈ (ofList records).names ↔ name ∈ records.map Prod.fst := by
    rw [names_ofList, List.mem_eraseDups]
  constructor
  case index =>
    intro name place hplace
    obtain ⟨record, hentry⟩ := exists_getElem?_of_indexOf? hplace
    obtain ⟨hlt, heq⟩ := List.getElem?_eq_some_iff.mp hentry
    exact ⟨hlt, congrArg Prod.fst heq⟩
  case indexed =>
    intro name hname
    exact exists_indexOf?_iff.mpr ((hmem name).mpr hname)
  case distinct => exact nodup_names _
  case names => exact names_ofList records
  case last =>
    rintro front rest name record rfl hlast
    exact get?_ofList_of_last hlast
  case absent =>
    intro name hname
    rw [← hmem, ← exists_get?_iff, not_exists] at hname
    exact Option.eq_none_iff_forall_ne_some.mpr hname
  case contains => exact contains_eq_isSome _
  case size => rw [PackageTable.size, ← names_ofList, PackageTable.names, List.length_map]
  case previous => exact fst_getThenInsert? _

/-- A name that is put in again keeps its place. -/
example :
    (ofList [("a", ⟨"1", [], none⟩), ("b", ⟨"1", [], none⟩), ("a", ⟨"2", [], none⟩)]).entries =
    [("a", ⟨"2", [], none⟩), ("b", ⟨"1", [], none⟩)] := by
  decide +kernel

end Retrofit.PackageMap

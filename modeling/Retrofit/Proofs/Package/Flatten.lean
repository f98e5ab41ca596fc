import Mathlib.Data.List.Induction
import Retrofit.Proofs.Dependency.Order
import Retrofit.Proofs.Package.Map

/-!
# The last visit decides the record, the first one the place

**Theorem (`flatten_lastVisitWins`).** After a tree was flattened into a map, every name that the
walk comes to has the record of its last node, and every other name has what it had. The names of
the map come first, and behind them the new ones in the order of their first visits. So flattening
the tree once more changes nothing, whatever the map held at the beginning.

The second walk passes through other maps than the one it begins and ends with, since early nodes of
a name take the place of the last one for a while. But all names are known by then, and of two
insertions under known names the order does not matter unless the names are equal (`insert_comm`).
So an insertion in front of a walk that comes to its name is lost, and any other one can as well
stand behind the walk (`foldl_visit_insert`).
-/

namespace Retrofit.PackageMap

variable {map : PackageMap} {name other : String} {record record' : PackageRecord}
  {catalog : Catalog} {directory : String} {tree : Dependencies}
    {visits : List (String × Dependency)}

/-! ## Two insertions -/

/-- The second one of two records for a name counts. -/
theorem insert_insert (map : PackageMap) :
    (map.insert name record).insert name record' = map.insert name record' := by
  refine eq_of_names_of_get? ?_ fun other => ?_
  · simp only [names_insert]
    split_ifs <;> simp_all
  · by_cases heq : other = name
    · rw [heq, get?_insert_self, get?_insert_self]
    · rw [get?_insert_of_ne heq, get?_insert_of_ne heq, get?_insert_of_ne heq]

/-- A record for a known name can be put in first or last. -/
theorem insert_comm (hne : name ≠ other) (hmem : other ∈ map.names) :
    (map.insert name record).insert other record' =
      (map.insert other record').insert name record := by
  refine eq_of_names_of_get? ?_ fun third => ?_
  · simp only [names_insert]
    split_ifs <;> simp_all
  · by_cases hname : third = name
    · subst hname
      rw [get?_insert_of_ne hne, get?_insert_self, get?_insert_self]
    · by_cases hother : third = other
      · subst hother
        rw [get?_insert_self, get?_insert_of_ne (Ne.symm hne), get?_insert_self]
      · rw [get?_insert_of_ne hother, get?_insert_of_ne hname, get?_insert_of_ne hname,
          get?_insert_of_ne hother]

/-! ## The names of a walk -/

theorem names_visit (map : PackageMap) (visited : String × Dependency) :
    (map.visit catalog directory visited).names =
      if visited.1 ∈ map.names then map.names else map.names ++ [visited.1] :=
  names_insert map

/-- The new names stand behind the old ones, in the order of their first visits. -/
theorem names_foldl_visit (map : PackageMap) (visits : List (String × Dependency)) :
    (visits.foldl (visit catalog directory) map).names =
      map.names ++ ((visits.map Prod.fst).filter (· ∉ map.names)).eraseDups := by
  rw [foldl_visit_eq_insertAll, names_insertAll, List.map_map]
  rfl

theorem mem_names_foldl_visit :
    name ∈ (visits.foldl (visit catalog directory) map).names ↔
      name ∈ map.names ∨ name ∈ visits.map Prod.fst := by
  rw [names_foldl_visit, List.mem_append, List.mem_eraseDups, List.mem_filter, decide_eq_true_eq]
  tauto

/-! ## A second walk -/

/-- Where all names of a walk are known, an insertion in front of it is lost if the walk comes to
the name, and can stand behind it if not. -/
theorem foldl_visit_insert (hknown : ∀ visited ∈ visits, visited.1 ∈ map.names) :
    visits.foldl (visit catalog directory) (map.insert name record) =
      if name ∈ visits.map Prod.fst then visits.foldl (visit catalog directory) map
      else (visits.foldl (visit catalog directory) map).insert name record := by
  induction visits generalizing map with
  | nil => simp
  | cons visited rest ih =>
    obtain ⟨hfirst, hrest⟩ := List.forall_mem_cons.mp hknown
    rw [List.foldl_cons, List.foldl_cons, List.map_cons]
    by_cases heq : name = visited.1
    · rw [if_pos (heq ▸ List.mem_cons_self ..), visit, visit, ← heq, insert_insert]
    · have hknown' :
          ∀ visited' ∈ rest, visited'.1 ∈ (map.visit catalog directory visited).names := by
        intro visited' hmem
        rw [names_visit, if_pos hfirst]
        exact hrest visited' hmem
      have hcomm : (map.insert name record).visit catalog directory visited =
          (map.visit catalog directory visited).insert name record :=
        insert_comm heq hfirst
      rw [hcomm, ih hknown']
      simp only [List.mem_cons, heq, false_or]

/-- A walk that is repeated changes nothing. -/
theorem foldl_visit_foldl_visit (map : PackageMap) (visits : List (String × Dependency)) :
    visits.foldl (visit catalog directory) (visits.foldl (visit catalog directory) map) =
      visits.foldl (visit catalog directory) map := by
  induction visits using List.reverseRecOn with
  | nil => rfl
  | append_singleton front last ih =>
    have hknown : ∀ visited ∈ front,
        visited.1 ∈ (front.foldl (visit catalog directory) map).names :=
      fun visited hmem => mem_names_foldl_visit.mpr (.inr (List.mem_map_of_mem hmem))
    rw [List.foldl_append, List.foldl_append, List.foldl_cons, List.foldl_nil, List.foldl_cons,
      List.foldl_nil]
    generalize hmap : front.foldl (visit catalog directory) map = middle at ih hknown
    rw [visit, visit, foldl_visit_insert hknown, ih]
    split_ifs
    · rfl
    · exact insert_insert middle

/-! ## Flattening -/

/-- What a walk over a tree makes of a map. -/
structure LastVisitWins (catalog : Catalog) (directory : String) (tree : Dependencies)
    (before after : PackageMap) : Prop where
  /-- The walk goes from each node to those below it, and then to the next one in the order of
  names. -/
  walk : tree.WalksInOrder
  /-- A name has the record of the last node that the walk comes to under it. -/
  record : ∀ {front rest name node}, tree.visits = front ++ (name, node) :: rest →
    (∀ other, (name, other) ∉ rest) →
      after.get? name = some (PackageRecord.ofInfo catalog directory name node.info)
  /-- A name that the walk does not come to has what it had. -/
  other : ∀ name, ¬ tree.Has name → after.get? name = before.get? name
  /-- New names stand behind the old ones in the order of their first visits. -/
  names : after.names =
    before.names ++ ((tree.visits.map Prod.fst).filter (· ∉ before.names)).eraseDups
  /-- Flattening the tree again changes nothing. -/
  again : after.flatten catalog directory tree = after

theorem get?_flatten_of_last (map : PackageMap) {front rest : List (String × Dependency)}
    {node : Dependency} (hvisits : tree.visits = front ++ (name, node) :: rest)
    (hlast : ∀ other, (name, other) ∉ rest) :
    (map.flatten catalog directory tree).get? name =
      some (PackageRecord.ofInfo catalog directory name node.info) := by
  rw [get?_flatten, hvisits, findRev?_of_last hlast]
  rfl

/-- **The last visit wins.** -/
theorem flatten_lastVisitWins (catalog : Catalog) (directory : String) (tree : Dependencies)
    (map : PackageMap) :
    LastVisitWins catalog directory tree map (map.flatten catalog directory tree) where
  walk := tree.walksInOrder
  record hvisits hlast := get?_flatten_of_last map hvisits hlast
  other _ hnot := get?_flatten_of_notMem map fun node hmem =>
    hnot (Dependencies.has_iff_exists_mem_visits.mpr ⟨node, hmem⟩)
  names := names_foldl_visit map tree.visits
  again := foldl_visit_foldl_visit map tree.visits

end Retrofit.PackageMap

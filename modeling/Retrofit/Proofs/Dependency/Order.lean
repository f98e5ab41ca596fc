import Retrofit.Proofs.Dependency.Visits

/-!
# The order of a walk

A node is found by the names on the way down to it. `PresentAt` keeps these names with the node, and
a walk comes to the nodes in the order of their ways: a node before the nodes below it, and what
stands below one name before what stands below a later one. This is the order of words in a
dictionary, with names for letters.

**Theorem (`walksInOrder`).** A walk comes to every way that leads to a present node once, and where
the names of each list are in order, the ways come in their order. The trees of projects are of this
kind, as they are read and scanned in order.

The proof keeps the names above each node while it walks (`ways`).
-/

namespace Retrofit

namespace Dependency

variable {name : String} {node : Dependency} {above : List String} {tree : Dependencies}

/-- The node stands in the tree under the name, below nodes with the names in `above`, and no node
is missing on the way down to it. -/
inductive PresentAt (name : String) (node : Dependency) : List String → Dependencies → Prop where
  | here {tree : Dependencies} (h : (name, node) ∈ tree) (hmissing : node.missing = false) :
      PresentAt name node [] tree
  | deeper {tree : Dependencies} {other : String} {parent : Dependency} {above : List String}
      (h : (other, parent) ∈ tree) (hmissing : parent.missing = false)
      (hbelow : PresentAt name node above parent.dependencies) :
      PresentAt name node (other :: above) tree

/-- A node that a walk comes to, with its name and the names above it. -/
structure Way where
  above : List String
  visited : String × Dependency

namespace Way

/-- All names on the way, that of the node last. -/
def names (way : Way) : List String :=
  way.above ++ [way.visited.1]

/-- The way that begins one node further up. -/
def under (name : String) (way : Way) : Way :=
  { way with above := name :: way.above }

@[simp] theorem names_under (name : String) (way : Way) :
    (way.under name).names = name :: way.names :=
  rfl

theorem names_ne_nil (way : Way) : way.names ≠ [] :=
  List.concat_ne_nil _ _

end Way

mutual

/-- The visits from a node downwards, each with the names above it. -/
def ways (name : String) : Dependency → List Way
  | .mk info missing below =>
    if missing then [] else ⟨[], name, .mk info missing below⟩ :: (waysAll below).map (.under name)

/-- The visits from the nodes of a list downwards, each with the names above it. -/
def waysAll : List (String × Dependency) → List Way
  | [] => []
  | (name, node) :: rest => node.ways name ++ waysAll rest

end

theorem ways_eq (other : String) (parent : Dependency) :
    parent.ways other =
      if parent.missing then []
      else ⟨[], other, parent⟩ :: (waysAll parent.dependencies).map (.under other) := by
  cases parent
  rw [ways]
  rfl

mutual

/-- The ways lead to the nodes that a walk comes to. -/
theorem map_ways (name : String) : ∀ node : Dependency,
    (node.ways name).map Way.visited = node.visits name
  | .mk info missing below => by
    rw [ways, visits]
    cases missing with
    | true => rfl
    | false =>
      have hunder : Way.visited ∘ Way.under name = Way.visited := rfl
      simp [hunder, map_waysAll below]

theorem map_waysAll : ∀ entries : List (String × Dependency),
    (waysAll entries).map Way.visited = visitsAll entries
  | [] => by simp [waysAll, visitsAll]
  | (name, node) :: rest => by
    rw [waysAll, visitsAll, List.map_append, map_ways name node, map_waysAll rest]

end

theorem mem_waysAll_of_mem {other : String} {parent : Dependency} {way : Way}
    (h : (other, parent) ∈ tree) (hway : way ∈ parent.ways other) : way ∈ waysAll tree := by
  induction tree with
  | nil => cases h
  | cons entry rest ih =>
    obtain ⟨first, child⟩ := entry
    rw [waysAll, List.mem_append]
    rcases List.mem_cons.mp h with heq | hrest
    · cases heq
      exact .inl hway
    · exact .inr (ih hrest)

mutual

theorem presentAt_of_mem_ways {other : String} :
    ∀ {parent : Dependency} {way : Way}, way ∈ parent.ways other →
      ∀ {tree : Dependencies}, (other, parent) ∈ tree →
        PresentAt way.visited.1 way.visited.2 way.above tree
  | .mk info missing below, way, hway, tree, h => by
    rw [ways] at hway
    cases missing with
    | true => simp at hway
    | false =>
      rcases List.mem_cons.mp hway with rfl | hbelow
      · exact .here h rfl
      · obtain ⟨rest, hrest, rfl⟩ := List.mem_map.mp hbelow
        exact .deeper h rfl (presentAt_of_mem_waysAll hrest (List.Subset.refl _))

theorem presentAt_of_mem_waysAll :
    ∀ {entries : List (String × Dependency)} {way : Way}, way ∈ waysAll entries →
      ∀ {tree : Dependencies}, entries ⊆ tree → PresentAt way.visited.1 way.visited.2 way.above tree
  | [], _, hway, _, _ => by simp [waysAll] at hway
  | (other, parent) :: rest, way, hway, tree, h => by
    rw [waysAll, List.mem_append] at hway
    rcases hway with hway | hway
    · exact presentAt_of_mem_ways hway (h (List.mem_cons_self ..))
    · exact presentAt_of_mem_waysAll hway (List.Subset.trans (List.subset_cons_self ..) h)

end

/-- The ways of a tree are those that lead to present nodes. -/
theorem mem_waysAll : ⟨above, name, node⟩ ∈ waysAll tree ↔ PresentAt name node above tree := by
  constructor
  · intro h
    exact presentAt_of_mem_waysAll h (List.Subset.refl _)
  · intro h
    induction h with
    | here h hmissing =>
      refine mem_waysAll_of_mem h ?_
      rw [ways_eq, hmissing]
      exact List.mem_cons_self ..
    | @deeper tree other parent above h hmissing hbelow ih =>
      refine mem_waysAll_of_mem h ?_
      rw [ways_eq, hmissing]
      exact List.mem_cons_of_mem _ (List.mem_map.mpr ⟨_, ih, rfl⟩)

/-! ## The order of the ways -/

theorem names_of_mem_ways {way : Way} (h : way ∈ node.ways name) :
    ∃ rest, way.names = name :: rest := by
  rw [ways_eq] at h
  split at h
  · cases h
  · rcases List.mem_cons.mp h with rfl | h
    · exact ⟨[], rfl⟩
    · obtain ⟨below, -, rfl⟩ := List.mem_map.mp h
      exact ⟨below.names, below.names_under name⟩

theorem names_of_mem_waysAll {way : Way} (h : way ∈ waysAll tree) :
    ∃ first ∈ Dictionary.keys tree, ∃ rest, way.names = first :: rest := by
  induction tree with
  | nil => simp [waysAll] at h
  | cons entry others ih =>
    obtain ⟨name, node⟩ := entry
    rw [waysAll, List.mem_append] at h
    rcases h with h | h
    · exact ⟨name, List.mem_cons_self .., names_of_mem_ways h⟩
    · obtain ⟨first, hmem, hrest⟩ := ih h
      exact ⟨first, List.mem_cons_of_mem _ hmem, hrest⟩

end Dependency

namespace Dependencies

open Dependency

/-- The names of each list of nodes are in order, at all depths. -/
inductive InOrder : Dependencies → Prop where
  | mk {tree : Dependencies} (names : (Dictionary.keys tree).Pairwise (· < ·))
      (below : ∀ name node, (name, node) ∈ tree → InOrder node.dependencies) : InOrder tree

end Dependencies

namespace Dependency

mutual

/-- Below a node the ways are in order. -/
theorem pairwise_ways (name : String) : ∀ node : Dependency, node.dependencies.InOrder →
    (node.ways name).Pairwise fun way way' => way.names < way'.names
  | .mk info missing below, h => by
    rw [ways]
    split
    · exact .nil
    · refine .cons ?_ ?_
      · intro way hway
        obtain ⟨rest, -, rfl⟩ := List.mem_map.mp hway
        rw [Way.names_under]
        cases hnames : rest.names with
        | nil => exact absurd hnames rest.names_ne_nil
        | cons first others =>
          exact List.cons_lt_cons_iff.mpr (.inr ⟨rfl, List.nil_lt_cons first others⟩)
      · refine List.pairwise_map.mpr ((pairwise_waysAll below h).imp fun {way way'} hlt => ?_)
        rw [Way.names_under, Way.names_under]
        exact List.cons_lt_cons_iff.mpr (.inr ⟨rfl, hlt⟩)

theorem pairwise_waysAll : ∀ tree : List (String × Dependency), Dependencies.InOrder tree →
    (waysAll tree).Pairwise fun way way' => way.names < way'.names
  | [], _ => by
    rw [waysAll]
    exact .nil
  | (name, node) :: rest, .mk hnames hbelow => by
    obtain ⟨hfirst, hrest⟩ := List.pairwise_cons.mp hnames
    rw [waysAll, List.pairwise_append]
    refine ⟨pairwise_ways name node (hbelow name node (List.mem_cons_self ..)),
      pairwise_waysAll rest (.mk hrest fun other parent hmem =>
        hbelow other parent (List.mem_cons_of_mem _ hmem)), ?_⟩
    intro way hway way' hway'
    obtain ⟨others, hothers⟩ := names_of_mem_ways hway
    obtain ⟨first, hmem, others', hothers'⟩ := names_of_mem_waysAll hway'
    rw [hothers, hothers']
    exact List.cons_lt_cons_iff.mpr (.inl (hfirst first hmem))

end

end Dependency

namespace Dependencies

open Dependency

/-- A walk comes to the present nodes, one for each way that leads to a present node. If the names
are in order, so are the ways. -/
def WalksInOrder (tree : Dependencies) : Prop :=
  ∃ ways : List Way, tree.visits = ways.map Way.visited ∧
    (∀ above name node, ⟨above, name, node⟩ ∈ ways ↔ PresentAt name node above tree) ∧
    (tree.InOrder → ways.Pairwise fun way way' => way.names < way'.names)

theorem walksInOrder (tree : Dependencies) : tree.WalksInOrder :=
  ⟨waysAll tree, (map_waysAll tree).symm, fun _ _ _ => mem_waysAll, pairwise_waysAll tree⟩

end Dependencies

end Retrofit

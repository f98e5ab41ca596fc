import Retrofit.Dependency.Visits

/-!
# Nodes in a tree

`Occurs` says that a node stands somewhere in a tree, and `Present` that neither it nor a node above
it is missing. The nodes that a walk comes to are those that are present (`mem_visits`). Where
nothing stands below missing nodes, these are all nodes that are not missing (`present_iff_occurs`).
-/

namespace Retrofit.Dependency

variable {name : String} {node : Dependency} {tree : Dependencies}

/-- The node stands in the tree under the name, at any depth. -/
inductive Occurs (name : String) (node : Dependency) : Dependencies → Prop where
  | here {tree : Dependencies} (h : (name, node) ∈ tree) : Occurs name node tree
  | deeper {tree : Dependencies} {other : String} {parent : Dependency} (h : (other, parent) ∈ tree)
      (hbelow : Occurs name node parent.dependencies) : Occurs name node tree

/-- The node stands in the tree under the name, and no node is missing on the way down to it. -/
inductive Present (name : String) (node : Dependency) : Dependencies → Prop where
  | here {tree : Dependencies} (h : (name, node) ∈ tree) (hmissing : node.missing = false) :
      Present name node tree
  | deeper {tree : Dependencies} {other : String} {parent : Dependency} (h : (other, parent) ∈ tree)
      (hmissing : parent.missing = false) (hbelow : Present name node parent.dependencies) :
      Present name node tree

theorem Present.occurs (h : Present name node tree) : Occurs name node tree := by
  induction h with
  | here h _ => exact .here h
  | deeper h _ _ ih => exact .deeper h ih

theorem Present.missing (h : Present name node tree) : node.missing = false := by
  induction h with
  | here _ hmissing => exact hmissing
  | deeper _ _ _ ih => exact ih

/-- What is present below a node that is present is so in the whole tree. -/
theorem Present.descend {other : String} {parent : Dependency} (h : Present other parent tree)
    (hbelow : Present name node parent.dependencies) : Present name node tree := by
  induction h with
  | here h hmissing => exact .deeper h hmissing hbelow
  | deeper h hmissing _ ih => exact .deeper h hmissing ih

theorem not_occurs_nil : ¬ Occurs name node [] := by
  intro h
  cases h with
  | here h => cases h
  | deeper h _ => cases h

/-- If nothing stands below missing nodes, every node that is not missing is present. -/
theorem present_iff_occurs
    (hleaf : ∀ other parent, Occurs other parent tree → parent.missing = true →
      parent.dependencies = []) :
    Present name node tree ↔ Occurs name node tree ∧ node.missing = false := by
  constructor
  · intro h
    exact ⟨h.occurs, h.missing⟩
  · rintro ⟨h, hmissing⟩
    induction h with
    | here h => exact .here h hmissing
    | @deeper tree other parent h hbelow ih =>
      cases hparent : parent.missing with
      | true =>
        rw [hleaf other parent (.here h) hparent] at hbelow
        exact absurd hbelow not_occurs_nil
      | false => exact .deeper h hparent (ih fun _ _ hocc => hleaf _ _ (.deeper h hocc))

/-! ## Walks -/

theorem visits_eq (other : String) (parent : Dependency) :
    parent.visits other =
      if parent.missing then [] else (other, parent) :: visitsAll parent.dependencies := by
  cases parent
  rw [visits]
  rfl

theorem mem_visitsAll_of_mem {other : String} {parent : Dependency} {visited : String × Dependency}
    (h : (other, parent) ∈ tree) (hvisited : visited ∈ parent.visits other) :
    visited ∈ visitsAll tree := by
  induction tree with
  | nil => cases h
  | cons entry rest ih =>
    obtain ⟨first, child⟩ := entry
    rw [visitsAll, List.mem_append]
    rcases List.mem_cons.mp h with heq | hrest
    · cases heq
      exact .inl hvisited
    · exact .inr (ih hrest)

mutual

theorem present_of_mem_visits {other : String} :
    ∀ {parent : Dependency}, (name, node) ∈ parent.visits other →
      ∀ {tree : Dependencies}, (other, parent) ∈ tree → Present name node tree
  | .mk info missing below, hvisit, tree, h => by
    rw [visits] at hvisit
    cases missing with
    | true => simp at hvisit
    | false =>
      rcases List.mem_cons.mp hvisit with heq | hbelow
      · cases heq
        exact .here h rfl
      · exact .deeper h rfl (present_of_mem_visitsAll hbelow (List.Subset.refl _))

theorem present_of_mem_visitsAll :
    ∀ {entries : List (String × Dependency)}, (name, node) ∈ visitsAll entries →
      ∀ {tree : Dependencies}, entries ⊆ tree → Present name node tree
  | [], hvisit, _, _ => by cases hvisit
  | (other, parent) :: rest, hvisit, tree, h => by
    rw [visitsAll, List.mem_append] at hvisit
    rcases hvisit with hvisit | hvisit
    · exact present_of_mem_visits hvisit (h (List.mem_cons_self ..))
    · exact present_of_mem_visitsAll hvisit (List.Subset.trans (List.subset_cons_self ..) h)

end

/-- A walk comes to the nodes that are present. -/
theorem mem_visits : (name, node) ∈ Dependencies.visits tree ↔ Present name node tree := by
  constructor
  · intro h
    exact present_of_mem_visitsAll h (List.Subset.refl _)
  · intro h
    induction h with
    | @here tree h hmissing =>
      refine mem_visitsAll_of_mem h ?_
      rw [visits_eq, hmissing]
      exact List.mem_cons_self ..
    | @deeper tree other parent h hmissing hbelow ih =>
      refine mem_visitsAll_of_mem h ?_
      rw [visits_eq, hmissing]
      exact List.mem_cons_of_mem _ ih

end Retrofit.Dependency

namespace Retrofit.Dependencies

/-- The tree has an installed package of that name. -/
def Has (tree : Dependencies) (name : String) : Prop :=
  ∃ node, Dependency.Present name node tree

/-- The tree has one metadata for each name, wherever the name stands. -/
def Coherent (tree : Dependencies) : Prop :=
  ∀ {name node other}, Dependency.Present name node tree → Dependency.Present name other tree →
    node.info = other.info

theorem has_iff_exists_mem_visits {tree : Dependencies} {name : String} :
    tree.Has name ↔ ∃ node, (name, node) ∈ tree.visits :=
  exists_congr fun _ => Dependency.mem_visits.symm

end Retrofit.Dependencies

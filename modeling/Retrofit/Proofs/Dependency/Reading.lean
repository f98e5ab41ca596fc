import Retrofit.Proofs.Dependency.Order
import Retrofit.Proofs.Json.Shape
import Retrofit.Proofs.Resolver.Scan

/-!
# The trees of projects are in order

A tree comes from a text or from the packages that are installed. Either way the names of each list
are in order at all depths (`inOrder_of_ofText`, `inOrder_of_scan`): what is read as a dictionary is
put in order, and a scan keeps the order in which the metadata declares.
-/

namespace Retrofit

variable {source root directory : String} {files : Files} {info : PackageMeta} {above : List String}
  {fuel : Nat} {tree : Dependencies} {o : Origin} {d : Draft}

open Shape

/-! ## Metadata -/

namespace PackageMeta

/-- The names that metadata declares are in order. -/
def DeclaresInOrder (info : PackageMeta) : Prop :=
  (Dictionary.keys info.dependencies).Pairwise (· < ·)

theorem declaresInOrder_empty : ({} : PackageMeta).DeclaresInOrder :=
  List.Pairwise.nil

theorem declaresInOrder_of_shape (h : shape o d = .ok info) : info.DeclaresInOrder := by
  refine of_record (fun field hfield => ?_) declaresInOrder_empty h
  simp only [List.mem_cons, List.not_mem_nil, or_false] at hfield
  obtain rfl | rfl | rfl | rfl := hfield
  · exact Field.given_keeps fun _ _ _ _ _ hr => hr
  · exact Field.given_keeps fun _ _ _ _ _ hr => hr
  · exact Field.given_keeps fun _ _ _ _ _ hr => hr
  · exact Field.given_keeps fun _ _ _ hvalue _ _ => pairwise_keys_of_dictionary hvalue

theorem declaresInOrder_of_ofText (h : ofText source = .ok info) : info.DeclaresInOrder := by
  obtain ⟨o, d, hread⟩ := exists_of_ofText h
  exact declaresInOrder_of_shape hread

theorem declaresInOrder_of_read {path : String} (h : read files path = .ok (some info)) :
    info.DeclaresInOrder := by
  obtain ⟨source, -, hinfo⟩ := read_eq_ok_some.mp h
  exact declaresInOrder_of_ofText hinfo

theorem declaresInOrder_of_installs {name : String} (h : files.Installs directory name info) :
    info.DeclaresInOrder := by
  obtain ⟨first, hfirst, h⟩ := bind_eq_ok.mp h
  cases first with
  | none => exact declaresInOrder_of_read h
  | some first =>
    cases h
    exact declaresInOrder_of_read hfirst

end PackageMeta

namespace Dependency

open Dependencies (InOrder)

theorem inOrder_nil : InOrder [] :=
  .mk List.Pairwise.nil fun _ _ h => by cases h

/-! ## Trees in a text -/

/-- The names in a description are in order at all depths, those of nodes and those that metadata
declares.
-/
inductive IsSorted : Dependency → Prop where
  | mk {info : PackageMeta} {missing : Bool} {below : Dependencies}
      (declared : info.DeclaresInOrder) (names : (Dictionary.keys below).Pairwise (· < ·))
      (nodes : ∀ name node, (name, node) ∈ below → IsSorted node) :
        IsSorted (.mk info missing below)

theorem isSorted_empty : empty.IsSorted :=
  .mk PackageMeta.declaresInOrder_empty .nil fun _ _ h => by cases h

theorem IsSorted.inOrder {node : Dependency} (h : node.IsSorted) : node.dependencies.InOrder := by
  induction h with
  | mk declared names nodes ih => exact .mk names ih

theorem isSorted_of_shapeWithin {node : Dependency} (h : shapeWithin fuel o d = .ok node) :
    node.IsSorted := by
  induction fuel generalizing node o d with
  | zero => cases h
  | succ fuel ih =>
    refine of_record (fun field hfield => ?_) isSorted_empty h
    simp only [List.mem_cons, List.not_mem_nil, or_false] at hfield
    obtain rfl | rfl | rfl := hfield
    · refine Field.given_keeps fun info _ _ hinfo _ ⟨_, hnames, hnodes⟩ => ?_
      exact .mk (PackageMeta.declaresInOrder_of_shape hinfo) hnames hnodes
    · exact Field.given_keeps fun _ _ _ _ _ ⟨hdeclared, hnames, hnodes⟩ =>
        .mk hdeclared hnames hnodes
    · refine Field.given_keeps fun below _ _ hbelow _ ⟨hdeclared, _, _⟩ => ?_
      refine .mk hdeclared (pairwise_keys_of_dictionary hbelow) fun name child hmem => ?_
      obtain ⟨o, d, hchild⟩ := exists_of_dictionary hbelow hmem
      exact ih hchild

theorem isSorted_of_ofText {node : Dependency} (h : ofText source = .ok node) : node.IsSorted := by
  obtain ⟨o, d, hread⟩ := exists_of_ofText h
  exact isSorted_of_shapeWithin hread

/-- A tree that is read is in order. -/
theorem inOrder_of_ofText {node : Dependency} (h : ofText source = .ok node) :
    node.dependencies.InOrder :=
  (isSorted_of_ofText h).inOrder

/-! ## Trees of installed packages -/

theorem keys_of_mapM_describeNode
    {descend : List String → PackageMeta → Except ResolverError Dependencies} {names : List String}
    (h : names.mapM (describeNode files directory descend above) = .ok tree) :
    Dictionary.keys tree = names := by
  induction names generalizing tree with
  | nil =>
    cases h
    rfl
  | cons name rest ih =>
    obtain ⟨⟨other, node⟩, others, hfirst, hrest, rfl⟩ := mapM_cons_eq_ok.mp h
    obtain ⟨rfl, -⟩ := describeNode_eq_ok.mp hfirst
    rw [Dictionary.keys, List.map_cons]
    exact congrArg _ (ih hrest)

theorem inOrder_of_describeBelow (hinfo : info.DeclaresInOrder)
    (h : describeBelow files directory fuel above info = .ok tree) : tree.InOrder := by
  induction fuel generalizing above info tree with
  | zero =>
    cases h
    exact inOrder_nil
  | succ fuel ih =>
    refine .mk ((keys_of_mapM_describeNode h).symm ▸ hinfo) fun name node hmem => ?_
    obtain ⟨-, hnode⟩ := (mem_describeBelow h).mp hmem
    cases hnode with
    | absent _ => exact inOrder_nil
    | repeated _ _ => exact inOrder_nil
    | descended hchild _ hbelow => exact ih (PackageMeta.declaresInOrder_of_installs hchild) hbelow

/-- A tree that is scanned is in order. -/
theorem inOrder_of_scan {config : ResolverConfig} {project : Dependency}
    (h : scan root config files = .ok project) : project.dependencies.InOrder := by
  obtain ⟨manifest, hmanifest, htree⟩ := describeBelow_of_scan h
  refine inOrder_of_describeBelow ?_ htree
  cases manifest with
  | none => exact PackageMeta.declaresInOrder_empty
  | some info => exact PackageMeta.declaresInOrder_of_read hmanifest

end Dependency

end Retrofit

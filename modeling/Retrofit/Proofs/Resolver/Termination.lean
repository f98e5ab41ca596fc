import Mathlib.Data.List.Forall2
import Retrofit.Proofs.Resolver.Scan

/-!
# The scan comes to an end

**Runs.** A scan goes through the names that some metadata declares. It goes down into a package
that is installed and does not stand above itself, with the name of the package among those above,
and comes back with this name taken out again. `Scans` are the runs of this recursion that come to
an end, step by step and with no bound on their depth.

**Theorem (`scan_settles`).** Every scan comes to an end, in one way (`Settles`). It leaves the
names above as they were, so the node of a package is the same whatever was scanned in front of it.
On a way down the tree no name stands more than twice, and nothing is below one that stands there
for the second time.

Each step down takes one declared name that is not above, and puts it there. So the number of such
names bounds the depth (`length_fresh_lt`), and with as much fuel a bounded scan ends as the
unbounded one (`scans_describeBelow`). What the tree looks like follows from what stands at one node
(`mem_describeBelow`), by induction on the fuel.
-/

namespace Retrofit.Dependency

/-- What a scan comes to: an error, or the nodes that it finds and what it leaves of the names
above. -/
abbrev ScanResult := Except ResolverError (Dependencies × List String)

variable {files : Files} {directory root name : String} {info : PackageMeta} {tree : Dependencies}
  {above left names declared : List String} {fuel : Nat}
  {branch : List (String × Dependency)} {outcome other : ScanResult}

/-! ## Runs -/

/-- A node in front of those that a scan has found. -/
def withNode (name : String) (node : Dependency) (found : Dependencies × List String) :
    Dependencies × List String :=
  ((name, node) :: found.1, found.2)

/-- A scan of names, below those in `above`, comes to an end, and to this result. -/
inductive Scans (files : Files) (directory : String) :
    List String → List String → ScanResult → Prop where
  | done {above : List String} : Scans files directory above [] (.ok ([], above))
  | unreadable {above rest : List String} {name : String} {error : ResolverError}
      (h : PackageMeta.readInstalled files (Path.under directory name) = .error error) :
      Scans files directory above (name :: rest) (.error error)
  | absent {above rest : List String} {name : String}
      {outcome : ScanResult} (h : files.Lacks directory name)
      (hrest : Scans files directory above rest outcome) :
      Scans files directory above (name :: rest) (outcome.map (withNode name absent))
  | repeated {above rest : List String} {name : String} {child : PackageMeta}
      {outcome : ScanResult} (h : files.Installs directory name child) (hmem : name ∈ above)
      (hrest : Scans files directory above rest outcome) :
      Scans files directory above (name :: rest) (outcome.map (withNode name (installed child [])))
  | failed {above rest : List String} {name : String} {child : PackageMeta} {error : ResolverError}
      (h : files.Installs directory name child) (hfresh : name ∉ above)
      (hbelow : Scans files directory (name :: above) (Dictionary.keys child.dependencies)
        (.error error)) :
      Scans files directory above (name :: rest) (.error error)
  | descended {above left rest : List String} {name : String} {child : PackageMeta}
      {below : Dependencies} {outcome : ScanResult}
      (h : files.Installs directory name child) (hfresh : name ∉ above)
      (hbelow : Scans files directory (name :: above) (Dictionary.keys child.dependencies)
        (.ok (below, left)))
      (hrest : Scans files directory (left.erase name) rest outcome) :
      Scans files directory above (name :: rest)
        (outcome.map (withNode name (installed child below)))

/-- A scan ends in one way. -/
theorem Scans.unique (h : Scans files directory above names outcome)
    (h' : Scans files directory above names other) : outcome = other := by
  induction h generalizing other with
  | done =>
    cases h'
    rfl
  | unreadable h =>
    cases h' with
    | unreadable h' => rw [h] at h'; exact congrArg _ (Except.error.inj h')
    | _ => simp_all [Files.Lacks, Files.Installs]
  | absent h _ ih =>
    cases h' with
    | absent _ hrest => rw [ih hrest]
    | _ => simp_all [Files.Lacks, Files.Installs]
  | repeated h hmem _ ih =>
    cases h' with
    | repeated h' _ hrest => rw [h.unique h', ih hrest]
    | _ => simp_all [Files.Lacks, Files.Installs]
  | failed h hfresh _ ih =>
    cases h' with
    | failed h' _ hbelow => exact ih (h.unique h' ▸ hbelow)
    | descended h' _ hbelow _ => cases ih (h.unique h' ▸ hbelow)
    | _ => simp_all [Files.Lacks, Files.Installs]
  | descended h hfresh _ _ ihbelow ihrest =>
    cases h' with
    | descended h' _ hbelow hrest =>
      obtain rfl := h.unique h'
      cases ihbelow hbelow
      rw [ihrest hrest]
    | failed h' _ hbelow => cases ihbelow (h.unique h' ▸ hbelow)
    | _ => simp_all [Files.Lacks, Files.Installs]

/-- The names above are at the end what they were at the beginning. -/
theorem Scans.restores (h : Scans files directory above names outcome)
    {found : Dependencies × List String} (hfound : outcome = .ok found) : found.2 = above := by
  induction h generalizing found with
  | done =>
    cases hfound
    rfl
  | unreadable => cases hfound
  | failed => cases hfound
  | absent _ _ ih =>
    obtain ⟨others, hothers, rfl⟩ := map_eq_ok.mp hfound
    show others.2 = _
    exact ih hothers
  | repeated _ _ _ ih =>
    obtain ⟨others, hothers, rfl⟩ := map_eq_ok.mp hfound
    show others.2 = _
    exact ih hothers
  | @descended above left rest name child below outcome _ _ _ _ ihbelow ihrest =>
    obtain ⟨others, hothers, rfl⟩ := map_eq_ok.mp hfound
    have hleft : left = name :: above := ihbelow rfl
    show others.2 = above
    rw [ihrest hothers, hleft, List.erase_cons_head]

/-- Every node is what a scan of its name alone finds. -/
theorem Scans.siblings (h : Scans files directory above names outcome)
    {found : Dependencies × List String} (hfound : outcome = .ok found) :
    List.Forall₂ (fun name entry => Scans files directory above [name] (.ok ([entry], above))) names
      found.1 := by
  induction h generalizing found with
  | done =>
    cases hfound
    exact .nil
  | unreadable => cases hfound
  | failed => cases hfound
  | absent h _ ih =>
    obtain ⟨others, hothers, rfl⟩ := map_eq_ok.mp hfound
    exact .cons (.absent h .done) (ih hothers)
  | repeated h hmem _ ih =>
    obtain ⟨others, hothers, rfl⟩ := map_eq_ok.mp hfound
    exact .cons (.repeated h hmem .done) (ih hothers)
  | @descended above left rest name child below outcome h hfresh hbelow _ _ ihrest =>
    obtain ⟨others, hothers, rfl⟩ := map_eq_ok.mp hfound
    have hleft : left.erase name = above := by
      rw [show left = name :: above from hbelow.restores rfl, List.erase_cons_head]
    have hend : Scans files directory (left.erase name) [] (.ok ([], above)) := by
      rw [hleft]
      exact .done
    rw [hleft] at ihrest
    exact .cons (.descended h hfresh hbelow hend) (ihrest hothers)

/-! ## Every scan comes to an end -/

/-- A step down leaves fewer names that are not above. -/
theorem length_fresh_lt (hname : name ∈ declared) (hfresh : name ∉ above) :
    (declared.filter (· ∉ name :: above)).length < (declared.filter (· ∉ above)).length := by
  have hfilter : declared.filter (· ∉ name :: above) =
      (declared.filter (· ∉ above)).filter (· ≠ name) := by
    rw [List.filter_filter]
    exact List.filter_congr fun other _ => by simp
  rw [hfilter]
  refine List.length_filter_lt_length_iff_exists.mpr ⟨name, ?_, by simp⟩
  simpa [hfresh] using hname

/-- A node that is described goes in front of what is described for the other names. -/
theorem mapM_describeNode_cons
    {describe : List String → PackageMeta → Except ResolverError Dependencies}
    {node : Dependency} (h : describeNode files directory describe above name = .ok (name, node))
    (rest : List String) :
    ((name :: rest).mapM (describeNode files directory describe above)).map (·, above) =
      ((rest.mapM (describeNode files directory describe above)).map (·, above)).map
        (withNode name node) := by
  rw [List.mapM_cons, h, ok_bind]
  cases rest.mapM (describeNode files directory describe above) <;> rfl

theorem scans_mapM {describe : List String → PackageMeta → Except ResolverError Dependencies}
    (h : ∀ name ∈ names, ∀ child, files.Installs directory name child → name ∉ above →
      Scans files directory (name :: above) (Dictionary.keys child.dependencies)
        ((describe (name :: above) child).map (·, name :: above))) :
    Scans files directory above names
      ((names.mapM (describeNode files directory describe above)).map (·, above)) := by
  induction names with
  | nil => exact .done
  | cons name rest ih =>
    have hrest := ih fun other hother => h other (List.mem_cons_of_mem name hother)
    cases hread : PackageMeta.readInstalled files (Path.under directory name) with
    | error error =>
      have hnode : describeNode files directory describe above name = .error error := by
        unfold describeNode
        rw [hread]
      rw [List.mapM_cons, hnode]
      exact .unreadable hread
    | ok found =>
      cases found with
      | none =>
        rw [mapM_describeNode_cons (describeNode_eq_ok.mpr ⟨rfl, .absent hread⟩)]
        exact .absent hread hrest
      | some child =>
        by_cases hmem : name ∈ above
        · rw [mapM_describeNode_cons (describeNode_eq_ok.mpr ⟨rfl, .repeated hread hmem⟩)]
          exact .repeated hread hmem hrest
        · have hbelow := h name (List.mem_cons_self ..) child hread hmem
          cases hdescribe : describe (name :: above) child with
          | error error =>
            have hnode : describeNode files directory describe above name = .error error := by
              unfold describeNode
              rw [hread]
              simp [hmem, hdescribe, Except.map]
            rw [hdescribe] at hbelow
            rw [List.mapM_cons, hnode]
            exact .failed hread hmem hbelow
          | ok below =>
            rw [hdescribe] at hbelow
            rw [mapM_describeNode_cons
              (describeNode_eq_ok.mpr ⟨rfl, .descended hread hmem hdescribe⟩)]
            refine .descended hread hmem hbelow ?_
            rwa [List.erase_cons_head]

/-- With fuel for all declared names that are not above, a bounded scan ends as the unbounded one
does. -/
theorem scans_describeBelow (hfiles : files.declaredNames ⊆ declared)
    (hinfo : Dictionary.keys info.dependencies ⊆ declared)
    (hfuel : (declared.filter (· ∉ above)).length < fuel) :
    Scans files directory above (Dictionary.keys info.dependencies)
      ((describeBelow files directory fuel above info).map (·, above)) := by
  induction fuel generalizing above info with
  | zero => exact absurd hfuel (Nat.not_lt_zero _)
  | succ fuel ih =>
    refine scans_mapM fun name hname child hchild hfresh => ?_
    have hchildren : Dictionary.keys child.dependencies ⊆ declared :=
      List.Subset.trans hchild.keys_subset hfiles
    have hlt := length_fresh_lt (hinfo hname) hfresh
    exact ih hchildren (by omega)

/-! ## Ways down the tree -/

/-- The list holds the entries on a way down from the top of the tree. -/
inductive Branch : Dependencies → List (String × Dependency) → Prop where
  | nil {tree : Dependencies} : Branch tree []
  | cons {tree : Dependencies} {entry : String × Dependency} {branch : List (String × Dependency)}
      (h : entry ∈ tree) (hbelow : Branch entry.2.dependencies branch) :
        Branch tree (entry :: branch)

/-- The names on a way down. -/
def wayNames (branch : List (String × Dependency)) : List String :=
  branch.map Prod.fst

/-- A way comes to its end where it comes to a name for the second time. Names above count as
well. -/
def EndsAtRepeat (above : List String) : List (String × Dependency) → Prop
  | [] => True
  | (name, node) :: rest =>
    (name ∈ above → node.dependencies = [] ∧ rest = []) ∧ EndsAtRepeat (name :: above) rest

theorem Branch.eq_nil (h : Branch [] branch) : branch = [] := by
  cases h with
  | nil => rfl
  | cons h _ => cases h

theorem endsAtRepeat_describeBelow (h : describeBelow files directory fuel above info = .ok tree)
    (hbranch : Branch tree branch) : EndsAtRepeat above branch := by
  induction fuel generalizing above info tree branch with
  | zero =>
    cases h
    rw [hbranch.eq_nil]
    trivial
  | succ fuel ih =>
    cases hbranch with
    | nil => trivial
    | @cons _ entry rest hentry hbelow =>
      obtain ⟨name, node⟩ := entry
      obtain ⟨-, hnode⟩ := (mem_describeBelow h).mp hentry
      cases hnode with
      | absent _ =>
        rw [hbelow.eq_nil]
        exact ⟨fun _ => ⟨rfl, rfl⟩, trivial⟩
      | repeated _ _ =>
        rw [hbelow.eq_nil]
        exact ⟨fun _ => ⟨rfl, rfl⟩, trivial⟩
      | descended _ hfresh hdescend => exact ⟨fun hmem => absurd hmem hfresh, ih hdescend hbelow⟩

namespace EndsAtRepeat

/-- A name stands at most twice on a way, names above included. -/
theorem count_le (h : EndsAtRepeat above branch) (name : String) :
    (wayNames branch).count name ≤ if name ∈ above then 1 else 2 := by
  induction branch generalizing above with
  | nil => simp [wayNames]
  | cons entry rest ih =>
    obtain ⟨first, node⟩ := entry
    obtain ⟨hrepeat, hrest⟩ := h
    have hle := ih hrest
    by_cases hfirst : first = name
    · subst hfirst
      simp only [List.mem_cons, true_or, if_true] at hle
      split_ifs with hmem
      · simp [wayNames, (hrepeat hmem).2]
      · simpa [wayNames] using hle
    · simpa [wayNames, hfirst, Ne.symm hfirst] using hle

/-- Nothing stands below a name that is on the way for the second time. -/
theorem dependencies_eq_nil (h : EndsAtRepeat above branch)
    {front back : List (String × Dependency)}
    {node : Dependency} (hcut : branch = front ++ (name, node) :: back)
    (hrepeat : name ∈ above ∨ name ∈ wayNames front) : node.dependencies = [] := by
  subst hcut
  induction front generalizing above with
  | nil =>
    rcases hrepeat with hmem | hmem
    · exact (h.1 hmem).1
    · cases hmem
  | cons entry front ih =>
    obtain ⟨first, other⟩ := entry
    have hrest : EndsAtRepeat (first :: above) (front ++ (name, node) :: back) := h.2
    refine ih ?_ hrest
    rcases hrepeat with hmem | hmem
    · exact .inl (List.mem_cons_of_mem first hmem)
    · rcases List.mem_cons.mp hmem with rfl | hmem
      · exact .inl (List.mem_cons_self ..)
      · exact .inr hmem

end EndsAtRepeat

/-! ## What a scan settles on -/

/-- The declared names that are not above. -/
def freshNames (files : Files) (above : List String) (info : PackageMeta) : List String :=
  (files.declaredNames ++ Dictionary.keys info.dependencies).filter (· ∉ above)

/-- The scan of what `info` declares, below the names in `above`, ends with the outcome. -/
structure Settles (files : Files) (directory : String) (above : List String) (info : PackageMeta)
    (outcome : ScanResult) : Prop where
  /-- There is a run that comes to an end, and no other. -/
  scans : ∀ other,
    Scans files directory above (Dictionary.keys info.dependencies) other ↔ other = outcome
  /-- The depth is bounded by the declared names that are not above. -/
  bounded : ∀ fuel, (freshNames files above info).length < fuel →
    (scanBelow files directory fuel info).run above = outcome
  /-- Only a scan that ends with a tree is gone on with. -/
  restores : ∀ tree left, outcome = .ok (tree, left) → left = above
  siblings : ∀ tree left, outcome = .ok (tree, left) →
    List.Forall₂ (fun name entry => Scans files directory above [name] (.ok ([entry], above)))
      (Dictionary.keys info.dependencies) tree
  twice : ∀ tree left, outcome = .ok (tree, left) → ∀ branch, Branch tree branch → ∀ name,
    (wayNames branch).count name ≤ if name ∈ above then 1 else 2
  /-- A second occurrence has nothing below. -/
  leaves : ∀ tree left, outcome = .ok (tree, left) → ∀ front name node back,
    Branch tree (front ++ (name, node) :: back) → name ∈ above ∨ name ∈ wayNames front →
    node.dependencies = []

/-- What the scan of a project comes to, without a bound on its depth. -/
inductive ScansProject (root : String) (config : ResolverConfig) (files : Files) :
    Except ResolverError Dependency → Prop where
  | unreadable {error : ResolverError}
      (h : PackageMeta.read files (Path.under root Manifest.fileName) = .error error) :
      ScansProject root config files (.error error)
  | read {manifest : Option PackageMeta}
      {outcome : ScanResult}
      (h : PackageMeta.read files (Path.under root Manifest.fileName) = .ok manifest)
      (hscans : Scans files (Path.under root config.installDirectory) []
        (Dictionary.keys (manifest.getD {}).dependencies) outcome) :
      ScansProject root config files (outcome.map fun found => installed (manifest.getD {}) found.1)

theorem settles_describeBelow (files : Files) (directory : String) (above : List String)
    (info : PackageMeta) (hfuel : (freshNames files above info).length < fuel) :
    Settles files directory above info
      ((describeBelow files directory fuel above info).map (·, above)) := by
  have hends : ∀ fuel, (freshNames files above info).length < fuel →
      Scans files directory above (Dictionary.keys info.dependencies)
        ((describeBelow files directory fuel above info).map (·, above)) := fun fuel =>
    scans_describeBelow (List.subset_append_left ..) (List.subset_append_right ..)
  have hways : ∀ tree left branch,
      (describeBelow files directory fuel above info).map (·, above) = .ok (tree, left) →
      Branch tree branch → EndsAtRepeat above branch := by
    intro tree left branch htree hbranch
    obtain ⟨found, hfound, heq⟩ := map_eq_ok.mp htree
    obtain ⟨rfl, -⟩ := Prod.mk.inj heq
    exact endsAtRepeat_describeBelow hfound hbranch
  constructor
  case scans =>
    intro other
    constructor
    · exact fun h => h.unique (hends fuel hfuel)
    · rintro rfl
      exact hends fuel hfuel
  case bounded =>
    intro more hmore
    rw [run_scanBelow]
    exact (hends more hmore).unique (hends fuel hfuel)
  case restores => exact fun tree left htree => (hends fuel hfuel).restores htree
  case siblings => exact fun tree left htree => (hends fuel hfuel).siblings htree
  case twice => exact fun tree left htree branch hbranch =>
    (hways tree left branch htree hbranch).count_le
  case leaves =>
    intro tree left htree front name node back hbranch
    exact (hways tree left _ htree hbranch).dependencies_eq_nil rfl

/-- The fuel of a project's scan does not run out. -/
theorem scansProject_scan (root : String) (config : ResolverConfig) (files : Files) :
    ScansProject root config files (scan root config files) := by
  unfold scan
  cases hread : PackageMeta.read files (Path.under root Manifest.fileName) with
  | error error => exact .unreadable hread
  | ok manifest =>
    have hinfo : Dictionary.keys (manifest.getD {}).dependencies ⊆ files.declaredNames := by
      cases manifest with
      | none => exact List.nil_subset _
      | some info => exact keys_subset_of_manifest hread
    have hfuel : (files.declaredNames.filter (· ∉ ([] : List String))).length <
        files.declaredNames.length + 1 := Nat.lt_succ_of_le (List.length_filter_le ..)
    have hscans : Scans files (Path.under root config.installDirectory) []
        (Dictionary.keys (manifest.getD {}).dependencies)
        ((describeBelow files (Path.under root config.installDirectory)
          (files.declaredNames.length + 1) [] (manifest.getD {})).map (·, [])) :=
      scans_describeBelow (List.Subset.refl _) hinfo hfuel
    rw [ok_bind]
    dsimp only
    rw [StateT.run'_eq, run_scanBelow]
    cases hbelow : describeBelow files (Path.under root config.installDirectory)
        (files.declaredNames.length + 1) [] (manifest.getD {}) <;>
      rw [hbelow] at hscans <;> exact .read hread hscans

/-- **Every scan comes to an end.** -/
theorem scan_settles (files : Files) :
    (∀ directory above info, ∃ outcome, Settles files directory above info outcome) ∧
      ∀ root config, ScansProject root config files (scan root config files) :=
  ⟨fun directory above info =>
    ⟨_, settles_describeBelow files directory above info (Nat.lt_succ_self _)⟩,
    fun root config => scansProject_scan root config files⟩

end Retrofit.Dependency

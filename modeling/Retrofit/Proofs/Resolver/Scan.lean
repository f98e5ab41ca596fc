import Mathlib.Control.Monad.Basic
import Mathlib.Data.List.Perm.Subperm
import Retrofit.Package.Flatten
import Retrofit.Proofs.Dependency.Visits
import Retrofit.Proofs.Package.Map
import Retrofit.Proofs.Resolver.Reachable

/-!
# The tree holds what can be reached

**Theorem (`scan_covers`).** If all metadata that the manifest leads to can be read, there is a
tree. Its installed packages are those that the manifest leads to, and so are the missing ones.
Flattening it gives one record for each installed package, from its own metadata.

**The set of names.** It is after a node what it was before, so every node is described with the
names above it (`run_scanBelow`).

**Cycles.** A node is cut off if its name stands above it. But what is below such a package is also
reached without coming back to it, from the place where its name came up first (`exists_occurs`).

**Depth.** The names on the way down are different and declared, so the fuel does not run out before
the declared names do (`WayDown`).
-/

namespace Retrofit

variable {files : Files} {directory root name other : String} {info : PackageMeta}
  {node : Dependency} {tree : Dependencies} {above : List String} {fuel : Nat}

/-! ## Describing nodes with the names above them -/

/-- Steps that leave the set of names as it is can be made without it. -/
theorem run_mapM {α β : Type} {f : α → Scanning β} {g : α → Except ResolverError β}
    (h : ∀ a, (f a).run above = (g a).map (·, above)) (as : List α) :
    (as.mapM f).run above = (as.mapM g).map (·, above) := by
  induction as with
  | nil => rfl
  | cons a rest ih =>
    rw [List.mapM_cons, List.mapM_cons, StateT.run_bind, h a]
    cases g a with
    | error => rfl
    | ok first =>
      rw [ok_bind, Except.map, ok_bind, StateT.run_bind, ih]
      cases rest.mapM g <;> rfl

namespace Dependency

/-- The node of a declared package below the names in `above`. -/
def describeNode (files : Files) (directory : String)
    (descend : List String → PackageMeta → Except ResolverError Dependencies)
    (above : List String) (name : String) : Except ResolverError (String × Dependency) :=
  match PackageMeta.readInstalled files (Path.under directory name) with
  | .error error => .error error
  | .ok none => .ok (name, absent)
  | .ok (some child) =>
    if name ∈ above then .ok (name, installed child [])
    else (descend (name :: above) child).map fun below => (name, installed child below)

/-- The packages that `info` declares, below the names in `above`. -/
def describeBelow (files : Files) (directory : String) :
    Nat → List String → PackageMeta → Except ResolverError Dependencies
  | 0, _, _ => .ok []
  | fuel + 1, above, info =>
    (Dictionary.keys info.dependencies).mapM
      (describeNode files directory
        (fun above child => describeBelow files directory fuel above child)
        above)

theorem run_scanNode {descend : PackageMeta → Scanning Dependencies}
    {below : List String → PackageMeta → Except ResolverError Dependencies}
    (h : ∀ above child, (descend child).run above = (below above child).map (·, above))
    (above : List String) (name : String) :
    (scanNode files directory descend name).run above =
      (describeNode files directory below above name).map (·, above) := by
  unfold scanNode describeNode
  cases PackageMeta.readInstalled files (Path.under directory name) with
  | error => rfl
  | ok found =>
    cases found with
    | none => rfl
    | some child =>
      by_cases hmem : name ∈ above
      · simp [hmem, ok_bind, pure_eq_ok, Except.map]
      · -- The name is put in front of the others, and taken out again from there.
        have hrestore : (name :: above).erase name = above := List.erase_cons_head ..
        cases hbelow : below (name :: above) child <;>
          simp [hmem, h, hbelow, ok_bind, error_bind, pure_eq_ok, map_eq_map, Except.map, hrestore]

/-- **The set of names is restored.** -/
theorem run_scanBelow (fuel : Nat) (above : List String) (info : PackageMeta) :
    (scanBelow files directory fuel info).run above =
      (describeBelow files directory fuel above info).map (·, above) := by
  induction fuel generalizing above info with
  | zero => rfl
  | succ fuel ih => exact run_mapM (run_scanNode ih above) _

/-- What is described for a name below the names in `above`, if `descend` describes what is below
installed packages. -/
inductive Described (files : Files) (directory : String)
    (descend : List String → PackageMeta → Except ResolverError Dependencies)
    (above : List String) (name : String) : Dependency → Prop where
  | absent (h : files.Lacks directory name) : Described files directory descend above name absent
  | repeated {child : PackageMeta} (h : files.Installs directory name child) (hmem : name ∈ above) :
      Described files directory descend above name (installed child [])
  | descended {child : PackageMeta} {below : Dependencies} (h : files.Installs directory name child)
      (hfresh : name ∉ above) (hbelow : descend (name :: above) child = .ok below) :
      Described files directory descend above name (installed child below)

theorem describeNode_eq_ok
    {descend : List String → PackageMeta → Except ResolverError Dependencies} :
    describeNode files directory descend above other = .ok (name, node) ↔
      other = name ∧ Described files directory descend above name node := by
  constructor
  · intro h
    unfold describeNode at h
    cases hread : PackageMeta.readInstalled files (Path.under directory other) with
    | error => simp [hread] at h
    | ok found =>
      cases found with
      | none =>
        simp only [hread, Except.ok.injEq, Prod.mk.injEq] at h
        obtain ⟨rfl, rfl⟩ := h
        exact ⟨rfl, .absent hread⟩
      | some child =>
        simp only [hread] at h
        split_ifs at h with hmem
        · simp only [Except.ok.injEq, Prod.mk.injEq] at h
          obtain ⟨rfl, rfl⟩ := h
          exact ⟨rfl, .repeated hread hmem⟩
        · cases hbelow : descend (other :: above) child with
          | error => simp [hbelow, Except.map] at h
          | ok below =>
            simp only [hbelow, Except.map, Except.ok.injEq, Prod.mk.injEq] at h
            obtain ⟨rfl, rfl⟩ := h
            exact ⟨rfl, .descended hread hmem hbelow⟩
  · rintro ⟨rfl, h⟩
    unfold describeNode
    cases h with
    | absent h => rw [Files.Lacks] at h; rw [h]
    | repeated h hmem => rw [Files.Installs] at h; simp [h, hmem]
    | descended h hfresh hbelow =>
      rw [Files.Installs] at h
      simp [h, hfresh, hbelow, Except.map]

theorem mem_describeBelow (h : describeBelow files directory (fuel + 1) above info = .ok tree) :
    (name, node) ∈ tree ↔ name ∈ Dictionary.keys info.dependencies ∧
      Described files directory (fun above child => describeBelow files directory fuel above child)
        above name node := by
  rw [mem_iff_of_mapM_eq_ok h]
  constructor
  · rintro ⟨other, hother, hnode⟩
    obtain ⟨rfl, hnode⟩ := describeNode_eq_ok.mp hnode
    exact ⟨hother, hnode⟩
  · rintro ⟨hname, hnode⟩
    exact ⟨name, hname, describeNode_eq_ok.mpr ⟨rfl, hnode⟩⟩

/-! ## What stands in the tree can be reached -/

/-- The node tells what is installed under the name. -/
inductive Tells (files : Files) (directory name : String) : Dependency → Prop where
  | absent (h : files.Lacks directory name) : Tells files directory name absent
  | installed {child : PackageMeta} {below : Dependencies}
      (h : files.Installs directory name child) :
      Tells files directory name (installed child below)

theorem Described.tells
    {descend : List String → PackageMeta → Except ResolverError Dependencies}
    (h : Described files directory descend above name node) : Tells files directory name node := by
  cases h with
  | absent h => exact .absent h
  | repeated h _ => exact .installed h
  | descended h _ _ => exact .installed h

theorem reachable_of_occurs (h : describeBelow files directory fuel above info = .ok tree)
    (hoccurs : Occurs name node tree) :
    Reachable files directory name info ∧ Tells files directory name node := by
  induction fuel generalizing above info tree with
  | zero =>
    cases h
    exact absurd hoccurs not_occurs_nil
  | succ fuel ih =>
    cases hoccurs with
    | here hmem =>
      obtain ⟨hname, hnode⟩ := (mem_describeBelow h).mp hmem
      exact ⟨.declared hname, hnode.tells⟩
    | deeper hmem hbelow =>
      obtain ⟨hother, hparent⟩ := (mem_describeBelow h).mp hmem
      cases hparent with
      | absent _ => exact absurd hbelow not_occurs_nil
      | repeated _ _ => exact absurd hbelow not_occurs_nil
      | descended hchild _ hdescend =>
        obtain ⟨hreach, htells⟩ := ih hdescend hbelow
        exact ⟨.through hother hchild hreach, htells⟩

/-- Nothing stands below a missing node. -/
theorem dependencies_of_missing (h : describeBelow files directory fuel above info = .ok tree)
    (hoccurs : Occurs name node tree) (hmissing : node.missing = true) :
    node.dependencies = [] := by
  obtain ⟨-, htells⟩ := reachable_of_occurs h hoccurs
  cases htells with
  | absent _ => rfl
  | installed _ => cases hmissing

end Dependency

/-! ## What can be reached stands in the tree -/

/-- The names on a way down, and fuel for all other declared names. -/
structure WayDown (files : Files) (fuel : Nat) (above : List String) : Prop where
  nodup : above.Nodup
  declared : above ⊆ files.declaredNames
  fuel : above.length + fuel = files.declaredNames.length + 1

namespace WayDown

theorem start (files : Files) : WayDown files (files.declaredNames.length + 1) [] :=
  ⟨List.nodup_nil, List.nil_subset _, Nat.zero_add _⟩

theorem ne_zero (h : WayDown files fuel above) : fuel ≠ 0 := by
  have hle : above.length ≤ files.declaredNames.length :=
    (List.subperm_of_subset h.nodup h.declared).length_le
  have hfuel := h.fuel
  omega

theorem down (h : WayDown files (fuel + 1) above) (hname : name ∈ files.declaredNames)
    (hfresh : name ∉ above) : WayDown files fuel (name :: above) := by
  refine ⟨List.nodup_cons.mpr ⟨hfresh, h.nodup⟩, List.cons_subset.mpr ⟨hname, h.declared⟩, ?_⟩
  have hfuel := h.fuel
  rw [List.length_cons]
  omega

end WayDown

namespace Dependency

theorem exists_described (h : describeBelow files directory (fuel + 1) above info = .ok tree)
    (hname : name ∈ Dictionary.keys info.dependencies) :
    ∃ node, (name, node) ∈ tree ∧
      Described files directory (fun above child => describeBelow files directory fuel above child)
        above name node := by
  obtain ⟨⟨other, node⟩, hnode⟩ := exists_of_mapM_eq_ok h hname
  obtain ⟨rfl, hdescribed⟩ := describeNode_eq_ok.mp hnode
  exact ⟨node, (mem_describeBelow h).mpr ⟨hname, hdescribed⟩, hdescribed⟩

/-- Where a package can be reached without the names above, it has a node below them. -/
theorem exists_occurs (h : describeBelow files directory fuel above info = .ok tree)
    (hway : WayDown files fuel above)
    (hinfo : Dictionary.keys info.dependencies ⊆ files.declaredNames)
    (hreach : ReachableAvoiding files directory above name info) :
    ∃ node, Occurs name node tree := by
  induction fuel generalizing above info tree with
  | zero => exact absurd rfl hway.ne_zero
  | succ fuel ih =>
    cases hreach with
    | declared hname =>
      obtain ⟨node, hmem, -⟩ := exists_described h hname
      exact ⟨node, .here hmem⟩
    | @through _ child other hother hfresh hchild hbelow =>
      obtain ⟨parent, hmem, hparent⟩ := exists_described h hother
      cases hparent with
      | absent hlacks => exact absurd hlacks hchild.not_lacks
      | repeated _ habove => exact absurd habove hfresh
      | @descended found below hfound _ hdescend =>
        obtain rfl := hfound.unique hchild
        have hend : ReachableAvoiding files directory (other :: above) name found := by
          rcases hbelow.avoid hchild with hend | hend
          · exact hend
          · exact hend
        obtain ⟨node, hoccurs⟩ :=
          ih hdescend (hway.down (hinfo hother) hfresh) hchild.keys_subset hend
        exact ⟨node, .deeper hmem hoccurs⟩

theorem exists_describeBelow
    (h : ∀ name, Reachable files directory name info →
      ∃ found, PackageMeta.readInstalled files (Path.under directory name) = .ok found) :
    ∃ tree, describeBelow files directory fuel above info = .ok tree := by
  induction fuel generalizing above info with
  | zero => exact ⟨[], rfl⟩
  | succ fuel ih =>
    refine exists_mapM_eq_ok fun name hname => ?_
    obtain ⟨found, hfound⟩ := h name (.declared hname)
    unfold describeNode
    rw [hfound]
    cases found with
    | none => exact ⟨_, rfl⟩
    | some child =>
      by_cases hmem : name ∈ above
      · exact ⟨_, if_pos hmem⟩
      · obtain ⟨below, hbelow⟩ :
            ∃ below, describeBelow files directory fuel (name :: above) child = .ok below :=
          ih fun other hother => h other (.through hname hfound hother)
        exact ⟨(name, installed child below), by simp [hmem, hbelow, Except.map]⟩

/-! ## The tree of a project -/

/-- The tree tells of every package that the metadata leads to, and of no other, and so do the
records that are made from it. -/
structure Covers (files : Files) (directory : String) (info : PackageMeta) (tree : Dependencies) :
    Prop where
  installed : ∀ name, (∃ node, Occurs name node tree ∧ node.missing = false) ↔
    Reachable files directory name info ∧ ∃ child, files.Installs directory name child
  missing : ∀ name, (∃ node, Occurs name node tree ∧ node.missing = true) ↔
    Reachable files directory name info ∧ files.Lacks directory name
  distinct : ∀ catalog place, (PackageMap.empty.flatten catalog place tree).names.Nodup
  records : ∀ catalog place name record,
    (name, record) ∈ (PackageMap.empty.flatten catalog place tree).entries ↔
      Reachable files directory name info ∧ ∃ child, files.Installs directory name child ∧
        record = PackageRecord.ofInfo catalog place name child

/-- A walk comes to the packages that are installed, and finds their metadata there. -/
theorem mem_visits_iff (h : describeBelow files directory fuel above info = .ok tree) :
    (name, node) ∈ tree.visits ↔
      Occurs name node tree ∧ files.Installs directory name node.info := by
  have hleaf : ∀ other parent, Occurs other parent tree → parent.missing = true →
      parent.dependencies = [] := fun _ _ => dependencies_of_missing h
  rw [mem_visits, present_iff_occurs hleaf]
  refine and_congr_right fun hoccurs => ?_
  obtain ⟨-, htells⟩ := reachable_of_occurs h hoccurs
  cases htells with
  | absent hlacks =>
    constructor
    · intro hmissing
      cases hmissing
    · intro hinst
      exact absurd hlacks hinst.not_lacks
  | installed hinst => exact ⟨fun _ => hinst, fun _ => rfl⟩

section

variable (h : describeBelow files directory (files.declaredNames.length + 1) [] info = .ok tree)
  (hinfo : Dictionary.keys info.dependencies ⊆ files.declaredNames)

include h hinfo

theorem exists_tells (hreach : Reachable files directory name info) :
    ∃ node, Occurs name node tree ∧ Tells files directory name node := by
  obtain ⟨node, hoccurs⟩ := exists_occurs h (WayDown.start files) hinfo hreach.avoiding_nil
  exact ⟨node, hoccurs, (reachable_of_occurs h hoccurs).2⟩

theorem exists_occurs_installed_iff :
    (∃ node, Occurs name node tree ∧ node.missing = false) ↔
      Reachable files directory name info ∧ ∃ child, files.Installs directory name child := by
  constructor
  · rintro ⟨node, hoccurs, hmissing⟩
    obtain ⟨hreach, htells⟩ := reachable_of_occurs h hoccurs
    cases htells with
    | absent _ => cases hmissing
    | installed hinst => exact ⟨hreach, _, hinst⟩
  · rintro ⟨hreach, child, hinst⟩
    obtain ⟨node, hoccurs, htells⟩ := exists_tells h hinfo hreach
    cases htells with
    | absent hlacks => exact absurd hlacks hinst.not_lacks
    | installed _ => exact ⟨_, hoccurs, rfl⟩

theorem exists_occurs_missing_iff :
    (∃ node, Occurs name node tree ∧ node.missing = true) ↔
      Reachable files directory name info ∧ files.Lacks directory name := by
  constructor
  · rintro ⟨node, hoccurs, hmissing⟩
    obtain ⟨hreach, htells⟩ := reachable_of_occurs h hoccurs
    cases htells with
    | absent hlacks => exact ⟨hreach, hlacks⟩
    | installed _ => cases hmissing
  · rintro ⟨hreach, hlacks⟩
    obtain ⟨node, hoccurs, htells⟩ := exists_tells h hinfo hreach
    cases htells with
    | absent _ => exact ⟨_, hoccurs, rfl⟩
    | installed hinst => exact absurd hlacks hinst.not_lacks

/-- All visits of a name come to what is installed under it, so the last one makes its record. -/
theorem get?_flatten_eq_some_iff {catalog : Catalog} {place : String} {record : PackageRecord} :
    (PackageMap.empty.flatten catalog place tree).get? name = some record ↔
      Reachable files directory name info ∧ ∃ child, files.Installs directory name child ∧
        record = PackageRecord.ofInfo catalog place name child := by
  by_cases hvisit : ∃ node, (name, node) ∈ tree.visits
  · obtain ⟨node, hnode⟩ := hvisit
    obtain ⟨hoccurs, hinst⟩ := (mem_visits_iff h).mp hnode
    have hsame : ∀ node', (name, node') ∈ tree.visits → node'.info = node.info :=
      fun node' hnode' => ((mem_visits_iff h).mp hnode').2.unique hinst
    rw [PackageMap.get?_flatten_of_mem _ hnode hsame]
    constructor
    · intro hrecord
      exact ⟨(reachable_of_occurs h hoccurs).1, node.info, hinst, (Option.some.inj hrecord).symm⟩
    · rintro ⟨-, child, hchild, rfl⟩
      rw [hinst.unique hchild]
  · rw [not_exists] at hvisit
    rw [PackageMap.get?_flatten_of_notMem _ hvisit]
    constructor
    · intro hrecord
      cases hrecord
    · rintro ⟨hreach, child, hchild, -⟩
      obtain ⟨node, hoccurs, htells⟩ := exists_tells h hinfo hreach
      cases htells with
      | absent hlacks => exact absurd hlacks hchild.not_lacks
      | installed hinst => exact absurd ((mem_visits_iff h).mpr ⟨hoccurs, hinst⟩) (hvisit _)

theorem covers_of_describeBelow : Covers files directory info tree where
  installed := fun _ => exists_occurs_installed_iff h hinfo
  missing := fun _ => exists_occurs_missing_iff h hinfo
  distinct := fun _ _ => PackageMap.nodup_names _
  records := by
    intro catalog place name record
    rw [PackageMap.mem_entries_iff]
    exact get?_flatten_eq_some_iff h hinfo

end

/-- **No package is lost at a cycle.** If the metadata can be read that the manifest leads to, there
is a tree, and it tells of exactly the packages that the manifest leads to. -/
theorem scan_covers {manifest : Option PackageMeta} (config : ResolverConfig)
    (hmanifest : PackageMeta.read files (Path.under root Manifest.fileName) = .ok manifest)
    (hreads : ∀ name,
      Reachable files (Path.under root config.installDirectory) name (manifest.getD {}) →
      ∃ found, PackageMeta.readInstalled files
        (Path.under (Path.under root config.installDirectory) name) = .ok found) :
    ∃ tree, scan root config files = .ok (installed (manifest.getD {}) tree) ∧
      Covers files (Path.under root config.installDirectory) (manifest.getD {}) tree := by
  obtain ⟨tree, htree⟩ : ∃ tree, describeBelow files (Path.under root config.installDirectory)
      (files.declaredNames.length + 1) [] (manifest.getD {}) = .ok tree :=
    exists_describeBelow hreads
  have hinfo : Dictionary.keys (manifest.getD {}).dependencies ⊆ files.declaredNames := by
    cases manifest with
    | none => exact List.nil_subset _
    | some info => exact keys_subset_of_manifest hmanifest
  refine ⟨tree, ?_, covers_of_describeBelow htree hinfo⟩
  simp [scan, hmanifest, ok_bind, run_scanBelow, htree, Except.map]

theorem describeBelow_of_scan {config : ResolverConfig} {project : Dependency}
    (h : scan root config files = .ok project) :
    ∃ manifest, PackageMeta.read files (Path.under root Manifest.fileName) = .ok manifest ∧
      describeBelow files (Path.under root config.installDirectory)
        (files.declaredNames.length + 1) [] (manifest.getD {}) = .ok project.dependencies := by
  unfold scan at h
  cases hread : PackageMeta.read files (Path.under root Manifest.fileName) with
  | error => simp [hread, error_bind] at h
  | ok manifest =>
    refine ⟨manifest, rfl, ?_⟩
    cases hbelow : describeBelow files (Path.under root config.installDirectory)
        (files.declaredNames.length + 1) [] (manifest.getD {}) with
    | error =>
      simp [hread, ok_bind, run_scanBelow, hbelow, Except.map] at h
    | ok tree =>
      simp only [hread, ok_bind, StateT.run'_eq, run_scanBelow, hbelow, Except.map, map_eq_map,
        pure_eq_ok, Except.ok.injEq] at h
      rw [← h]
      rfl

/-- The metadata of a name is what is installed under it, wherever the name stands. -/
theorem coherent_of_scan {config : ResolverConfig} {project : Dependency}
    (h : scan root config files = .ok project) : project.dependencies.Coherent := by
  obtain ⟨manifest, -, htree⟩ := describeBelow_of_scan h
  intro name node other hnode hother
  have hinst := ((mem_visits_iff htree).mp (mem_visits.mpr hnode)).2
  exact hinst.unique ((mem_visits_iff htree).mp (mem_visits.mpr hother)).2

/-- A project with two packages that need each other, one of which also needs itself and one that is
not installed. -/
def entangled : Files where
  nodes := [
    ("/p", .directory 1),
    ("/p/bower.json", .file (Text.encode "\x7b\"dependencies\":\x7b\"a\":\"\"\x7d\x7d") 1),
    ("/p/bower_components", .directory 1),
    ("/p/bower_components/a", .directory 1),
    ("/p/bower_components/a/.bower.json",
      .file (Text.encode "\x7b\"dependencies\":\x7b\"b\":\"\"\x7d\x7d") 1),
    ("/p/bower_components/b", .directory 1),
    ("/p/bower_components/b/bower.json", .file (Text.encode
      "\x7b\"dependencies\":\x7b\"a\":\"\",\"b\":\"\",\"c\":\"\"\x7d\x7d") 1)]
  current := []

theorem scan_covers_entangled :
    PackageMeta.read entangled (Path.under "/p" Manifest.fileName) =
        .ok (some { dependencies := [("a", "")] }) ∧
      ∃ tree, scan "/p" {} entangled = .ok (installed { dependencies := [("a", "")] } tree) ∧
        Covers entangled (Path.under "/p" (ResolverConfig.installDirectory {}))
          { dependencies := [("a", "")] } tree := by
  have hmanifest : PackageMeta.read entangled (Path.under "/p" Manifest.fileName) =
      .ok (some { dependencies := [("a", "")] }) := by
    decide +kernel
  have hdeclared : ∀ name ∈ entangled.declaredNames, (PackageMeta.readInstalled entangled
      (Path.under (Path.under "/p" (ResolverConfig.installDirectory {})) name)).isOk := by
    decide +kernel
  refine ⟨hmanifest, scan_covers {} hmanifest fun name hreach => ?_⟩
  have hread := hdeclared name (hreach.mem_declaredNames (keys_subset_of_manifest hmanifest))
  cases hfound : PackageMeta.readInstalled entangled
      (Path.under (Path.under "/p" (ResolverConfig.installDirectory {})) name) with
  | error => simp [hfound, Except.isOk, Except.toBool] at hread
  | ok found => exact ⟨found, rfl⟩

end Dependency

end Retrofit

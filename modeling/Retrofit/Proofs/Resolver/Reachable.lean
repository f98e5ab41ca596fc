import Mathlib.Tactic.SplitIfs
import Retrofit.Proofs.Except
import Retrofit.Proofs.Patch.Job
import Retrofit.Resolver.Installed

/-!
# What metadata leads to

**Ways.** A package is reached if the metadata declares it, or if an installed package that it
declares leads there (`Reachable`). A way that comes through a package more than once has an end
that does not, and that begins at this package (`ReachableAvoiding.avoid`).

**Declared names.** Every name that is reached is declared by metadata in some file
(`Reachable.mem_declaredNames`).
-/

namespace Retrofit

variable {files : Files} {directory path name other : String} {info child : PackageMeta}

/-! ## Ways -/

/-- The package is installed and has the metadata. -/
def Files.Installs (files : Files) (directory name : String) (info : PackageMeta) : Prop :=
  PackageMeta.readInstalled files (Path.under directory name) = .ok (some info)

/-- The package has no metadata. -/
def Files.Lacks (files : Files) (directory name : String) : Prop :=
  PackageMeta.readInstalled files (Path.under directory name) = .ok none

theorem Files.Installs.unique {info' : PackageMeta} (h : files.Installs directory name info)
    (h' : files.Installs directory name info') : info = info' := by
  rw [Files.Installs] at h h'
  rw [h] at h'
  exact Option.some.inj (Except.ok.inj h')

theorem Files.Installs.not_lacks (h : files.Installs directory name info) :
    ¬ files.Lacks directory name := by
  intro hlacks
  rw [Files.Installs] at h
  rw [Files.Lacks, h] at hlacks
  cases hlacks

/-- The metadata declares the name, or an installed package that it declares leads there. -/
inductive Reachable (files : Files) (directory name : String) : PackageMeta → Prop where
  | declared {info : PackageMeta} (h : name ∈ Dictionary.keys info.dependencies) :
      Reachable files directory name info
  | through {info child : PackageMeta} {other : String}
      (h : other ∈ Dictionary.keys info.dependencies)
      (hchild : files.Installs directory other child)
      (hbelow : Reachable files directory name child) : Reachable files directory name info

/-- A way as in `Reachable` that does not lead through the names in `avoid`. -/
inductive ReachableAvoiding (files : Files) (directory : String) (avoid : List String)
    (name : String) : PackageMeta → Prop where
  | declared {info : PackageMeta} (h : name ∈ Dictionary.keys info.dependencies) :
      ReachableAvoiding files directory avoid name info
  | through {info child : PackageMeta} {other : String}
      (h : other ∈ Dictionary.keys info.dependencies) (hother : other ∉ avoid)
      (hchild : files.Installs directory other child)
      (hbelow : ReachableAvoiding files directory avoid name child) :
      ReachableAvoiding files directory avoid name info

theorem Reachable.avoiding_nil (h : Reachable files directory name info) :
    ReachableAvoiding files directory [] name info := by
  induction h with
  | declared h => exact .declared h
  | through h hchild _ ih => exact .through h List.not_mem_nil hchild ih

/-- A way through an installed package has an end that begins there and does not come back. -/
theorem ReachableAvoiding.avoid {avoid : List String}
    (hchild : files.Installs directory other child)
    (h : ReachableAvoiding files directory avoid name info) :
    ReachableAvoiding files directory (other :: avoid) name info ∨
      ReachableAvoiding files directory (other :: avoid) name child := by
  induction h with
  | declared h => exact .inl (.declared h)
  | @through info next middle h hmiddle hnext _ ih =>
    by_cases heq : middle = other
    · subst heq
      rw [hnext.unique hchild] at ih
      rcases ih with hend | hend
      · exact .inr hend
      · exact .inr hend
    · rcases ih with hend | hend
      · have hfresh : middle ∉ other :: avoid := by simp [heq, hmiddle]
        exact .inl (.through h hfresh hnext hend)
      · exact .inr hend

/-! ## Declared names -/

theorem PackageMeta.read_eq_ok_some :
    PackageMeta.read files path = .ok (some info) ↔
      ∃ source, files.readText path = .ok source ∧ PackageMeta.ofText source = .ok info := by
  unfold PackageMeta.read
  cases files.readText path with
  | error fault => cases fault <;> simp
  | ok source => cases htext : PackageMeta.ofText source <;> simp [htext]

theorem PackageMeta.read_eq_ok_none :
    PackageMeta.read files path = .ok none ↔ files.readText path = .error .notFound := by
  unfold PackageMeta.read
  cases files.readText path with
  | error fault => cases fault <;> simp
  | ok source => cases htext : PackageMeta.ofText source <;> simp [htext]

/-- What metadata declares, if its file is called as files with metadata are. -/
theorem keys_subset_declaredNames {fileName : String} (front : List Char)
    (hname : Path.segments fileName = [front ++ Manifest.fileName.toList])
    (hord : Path.IsOrdinary (front ++ Manifest.fileName.toList))
    (habs : Path.isAbsolute fileName = false)
    (h : PackageMeta.read files (Path.under path fileName) = .ok (some info)) :
    Dictionary.keys info.dependencies ⊆ files.declaredNames := by
  obtain ⟨source, hsource, hinfo⟩ := PackageMeta.read_eq_ok_some.mp h
  obtain ⟨bytes, hbytes, hdecode⟩ := Files.readText_eq_ok.mp hsource
  obtain ⟨time, hget⟩ := Files.read_eq_ok.mp hbytes
  obtain ⟨place, hplace, hnode⟩ := Files.get_eq_ok.mp hget
  obtain ⟨pre, hpre⟩ := Path.segments_under path
  have hsegments := hpre fileName habs
  rw [hname] at hsegments
  obtain ⟨parent, -, rfl⟩ := Files.locate_concat hsegments hord hplace
  have hmem : (Place.path (parent ++ [front ++ Manifest.fileName.toList]), Node.file bytes time) ∈
      files.nodes := by
    apply Dictionary.mem_of_get?
    simpa [Files.node?] using hnode
  have hending : Text.stripEnd? Manifest.fileName.toList
      (Place.path (parent ++ [front ++ Manifest.fileName.toList])).toList ≠ none := by
    obtain ⟨start, hstart⟩ := Path.exists_front parent
    have hpath : (Place.path (parent ++ [front ++ Manifest.fileName.toList])).toList =
        '/' :: start ++ front ++ Manifest.fileName.toList := by
      simp [Place.path, Path.ofSegments, hstart]
    rw [hpath, Text.stripEnd?_append]
    exact Option.some_ne_none _
  intro name hkey
  refine List.mem_flatMap.mpr ⟨_, hmem, ?_⟩
  simpa [Files.namesIn, hending, hdecode, hinfo] using hkey

theorem keys_subset_of_manifest
    (h : PackageMeta.read files (Path.under path Manifest.fileName) = .ok (some info)) :
    Dictionary.keys info.dependencies ⊆ files.declaredNames :=
  keys_subset_declaredNames [] (by decide +kernel) (by decide +kernel) (by decide +kernel) h

theorem Files.Installs.keys_subset (h : files.Installs directory name info) :
    Dictionary.keys info.dependencies ⊆ files.declaredNames := by
  rw [Files.Installs, PackageMeta.readInstalled] at h
  cases hfirst : PackageMeta.read files
      (Path.under (Path.under directory name) PackageMeta.installedName) with
  | error => simp [hfirst, error_bind] at h
  | ok found =>
    cases found with
    | some first =>
      have heq : first = info := by simpa [hfirst, ok_bind, pure_eq_ok] using h
      subst heq
      exact keys_subset_declaredNames ['.'] (by decide +kernel) (by decide +kernel)
        (by decide +kernel) hfirst
    | none => exact keys_subset_of_manifest (by simpa [hfirst, ok_bind] using h)

theorem Reachable.mem_declaredNames (h : Reachable files directory name info)
    (hinfo : Dictionary.keys info.dependencies ⊆ files.declaredNames) :
    name ∈ files.declaredNames := by
  induction h with
  | declared h => exact hinfo h
  | through _ hchild _ ih => exact ih hchild.keys_subset

end Retrofit

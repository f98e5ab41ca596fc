import Retrofit.Proofs.Package.Projection

/-!
# Entries of module loaders

An entry names a module by the directory of its file, seen from the base directory, and the name of
the file without the ending of scripts. A loader puts the two together again and adds the ending
(`ModuleConfig.filePath`).

**Theorem (`Projection.leads_back_iff`).** This is the path of the file in the view of all files if
and only if three things hold (`Path.FoundFrom`): the path begins where the base directory does, it
leads up at least as far as the base directory, and it is the path of a script.

The first is so whenever the install directory is given and begins where the base directory does.
The second is so for a base directory inside the project, and not for one outside, from where no
text leads down into the project again. The third is so unless the file is patched and has no name
in front of the ending: then the marker goes behind the ending. Both happen
(`Projection.not_all_lead_back`).
-/

namespace Retrofit

namespace Path

open Text

variable {path marker : String} {pre front : List Segment} {stem : Segment}

/-! ## Scripts -/

/-- The ending of scripts. -/
abbrev scriptEnding : List Char := ".js".toList

theorem isScript_iff : isScript path = true ↔ ∃ stem, path.toList = stem ++ scriptEnding := by
  rw [isScript, Option.isSome_iff_exists]
  constructor
  · rintro ⟨stem, h⟩
    exact ⟨stem, eq_append_of_stripEnd? h⟩
  · rintro ⟨stem, h⟩
    exact ⟨stem, h ▸ stripEnd?_append stem scriptEnding⟩

/-- A name with the ending of scripts names something in its directory. -/
theorem isOrdinary_script (stem : Segment) : IsOrdinary (stem ++ scriptEnding) := by
  have hmem : 'j' ∈ stem ++ scriptEnding := List.mem_append_right _ (by decide)
  refine ⟨List.ne_nil_of_mem hmem, fun h => ?_, fun h => ?_⟩
  · exact absurd (h ▸ hmem) (by decide)
  · exact absurd (h ▸ hmem) (by decide)

/-- A script is a path that ends in the name of one. -/
theorem isScript_iff_segments :
    isScript path = true ↔ ∃ pre stem, segments path = pre ++ [stem ++ scriptEnding] := by
  rw [isScript_iff]
  constructor
  · rintro ⟨stem, htext⟩
    obtain ⟨pre, last, hstem⟩ := segments_eq_concat (String.ofList stem)
    obtain ⟨front, hfront⟩ := exists_front pre
    have hfrontText : stem = front ++ last := by
      rw [← hfront last, ← hstem, ← toList_eq_joinWith, String.toList_ofList]
    have hlast : '/' ∉ last ++ scriptEnding := by
      rw [List.mem_append, not_or]
      exact ⟨notMem_of_mem_segments (hstem ▸ List.mem_concat_self ..), by decide⟩
    refine ⟨pre, last, segments_of_toList hstem hfront hlast ?_⟩
    rw [htext, hfrontText, List.append_assoc]
  · rintro ⟨pre, stem, hpath⟩
    obtain ⟨front, hfront⟩ := exists_front pre
    exact ⟨front ++ stem, by rw [toList_eq_joinWith, hpath, hfront, List.append_assoc]⟩

/-- The marker goes in front of the ending of scripts, if there is a name in front of it. -/
theorem marked_script (marker : String) (h : stem ≠ []) :
    marked marker (stem ++ scriptEnding) = stem ++ '.' :: marker.toList ++ scriptEnding := by
  have hdot : '.' ∉ "js".toList := by decide
  rcases marked_cases marker (stem ++ scriptEnding)
      with ⟨front, back, hname, -, hback, hmark⟩ | ⟨htail, -⟩
  · obtain ⟨rfl, rfl⟩ := eq_of_append_cons_eq hdot hback hname
    exact hmark
  · obtain ⟨c, cs, rfl⟩ := List.exists_cons_of_ne_nil h
    exact absurd (List.mem_append_right cs (List.mem_cons_self ..)) htail

/-- A joined path is one of a script if its file is. -/
theorem isScript_join {base file : String} (hbase : base.isEmpty = false)
    (h : isScript file = true) :
    isScript (join base file) = true := by
  obtain ⟨pre, stem, hfile⟩ := isScript_iff_segments.mp h
  obtain ⟨front, hfront⟩ := exists_segments_join hbase pre
  exact isScript_iff_segments.mpr ⟨front, stem, hfront file _ hfile (isOrdinary_script stem)⟩

/-- The patched form of a script is a script, if there is a name in front of its ending. -/
theorem isScript_patchedName {file : String} (hmarker : '/' ∉ marker.toList)
    (h : isScript file = true)
    (hname : basename file ≠ ".js") : isScript (patchedName file marker) = true := by
  obtain ⟨pre, stem, hfile⟩ := isScript_iff_segments.mp h
  have hstem : stem ≠ [] := by
    rintro rfl
    exact hname (by simp [basename, hfile])
  refine isScript_iff_segments.mpr ⟨pre, stem ++ '.' :: marker.toList, ?_⟩
  rw [segments_patchedName_of hmarker hfile, marked_script marker hstem]

/-! ## Directory and name -/

/-- What a normal form of a script consists of. -/
theorem exists_of_isScript_normalize (h : isScript (normalize path) = true) :
    ∃ front stem, resolved path = front ++ [stem ++ scriptEnding] ∧
      basename (normalize path) = String.ofList (stem ++ scriptEnding) := by
  obtain ⟨pre, stem, hpath⟩ := isScript_iff_segments.mp h
  rcases (resolved path).eq_nil_or_concat' with hnil | ⟨front, last, hresolved⟩
  · rw [normalize_of_resolved_eq_nil hnil] at h
    exact absurd h (by cases isAbsolute path <;> decide)
  · have hsegments := segments_normalize (hresolved ▸ List.concat_ne_nil _ _)
    rw [hresolved, ← List.append_assoc, hpath] at hsegments
    obtain rfl := (List.cons.inj (List.append_inj' hsegments rfl).2).1
    exact ⟨front, stem, hresolved, by simp [basename, hpath]⟩

/-- A joined path is the normal form of a path if it begins where that does and leads to the same
place. -/
theorem join_eq_normalize_iff {base rest : String} :
    join base rest = normalize path ↔
      isAbsolute (join base rest) = isAbsolute path ∧
        resolved (join base rest) = resolved path := by
  refine ⟨fun h => by rw [h, isAbsolute_normalize, resolved_normalize]; exact ⟨rfl, rfl⟩, ?_⟩
  rw [join_eq_normalize, isAbsolute_normalize, resolved_normalize]
  exact fun ⟨habs, h⟩ => normalize_congr habs h

/-- A path that is found again from a base directory by its directory and its name. -/
structure FoundFrom (base path : String) : Prop where
  begins : isAbsolute path = isAbsolute base
  climbs : climbs base ≤ climbs path
  script : isScript path = true

end Path

/-! ## Entries -/

open Path in
/-- The file that an entry stands for, from the base directory. -/
def ModuleConfig.filePath (m : ModuleConfig) (baseDir : String) : String :=
  join (join baseDir m.location) (m.main ++ ".js")

namespace Projection

open Path Text

variable {p : Projection} {name path file : String} {record : PackageRecord} {m : ModuleConfig}

/-- The entry for a file of a package. -/
def entryOf (p : Projection) (name path : String) : ModuleConfig where
  name := join p.vendorPrefix name
  main := withoutEnding (basename path)
  location := relative p.baseDir (dirname path)

theorem moduleConfig?_eq_some : p.moduleConfig? name record = some m ↔
    ∃ first, record.files.find? isScript = some first ∧
      m = p.entryOf name (p.resolvedPath name record first) := by
  rw [moduleConfig?]
  cases record.files.find? isScript with
  | none => simp
  | some first => simp [entryOf, eq_comm]

theorem withoutEnding_ofList (stem : List Char) :
    withoutEnding (String.ofList (stem ++ scriptEnding)) = String.ofList stem := by
  have hstrip : stripEnd? ['.', 'j', 's'] (stem ++ ['.', 'j', 's']) = some stem :=
    stripEnd?_append ..
  simp [withoutEnding, hstrip]

theorem notMem_withoutEnding (h : '/' ∉ file.toList) : '/' ∉ (withoutEnding file).toList := by
  rw [withoutEnding]
  cases hstrip : stripEnd? ".js".toList file.toList with
  | none => exact h
  | some front =>
    rw [String.toList_ofList]
    exact fun hmem => h (eq_append_of_stripEnd? hstrip ▸ List.mem_append_left _ hmem)

theorem notMem_basename (path : String) : '/' ∉ (basename path).toList := by
  obtain ⟨pre, last, hpath⟩ := segments_eq_concat path
  have hlast : '/' ∉ last := notMem_of_mem_segments (hpath ▸ List.mem_concat_self ..)
  simpa [basename, hpath] using hlast

/-- The file of an entry is a script in the directory that the entry tells. -/
theorem resolved_filePath (hmain : '/' ∉ m.main.toList) (base : String) :
    isAbsolute (m.filePath base) = isAbsolute (join base m.location) ∧
      resolved (m.filePath base) =
        resolved (join base m.location) ++ [m.main.toList ++ scriptEnding] ∧
      isScript (m.filePath base) = true := by
  have hbase := isEmpty_join base m.location
  have hfile : segments (m.main ++ ".js") = [m.main.toList ++ scriptEnding] := by
    rw [segments, String.toList_append]
    refine pieces_of_notMem ?_
    rw [List.mem_append, not_or]
    exact ⟨hmain, by decide⟩
  obtain ⟨habs, hresolved⟩ := resolved_join hbase (m.main ++ ".js")
  refine ⟨habs, ?_, ?_⟩
  · rw [hfile, resolve_append_of_isOrdinary _ (List.forall_mem_singleton.mpr (isOrdinary_script _)),
      resolve_of_isNormal (isNormal_resolved _)] at hresolved
    exact hresolved
  · exact isScript_join hbase (isScript_iff_segments.mpr ⟨[], _, hfile⟩)

theorem filePath_eq_normalize_iff {base : String} : m.filePath base = normalize path ↔
    isAbsolute (m.filePath base) = isAbsolute path ∧
      resolved (m.filePath base) = resolved path := by
  rw [ModuleConfig.filePath]
  exact join_eq_normalize_iff

/-- An entry that tells the directory and the name of a path in normal form leads back to it if and
only if it is found from the base directory. -/
theorem filePath_eq_iff {base : String} (hmain : m.main = withoutEnding (basename (normalize path)))
    (hlocation : m.location = relative base (dirname (normalize path))) :
    m.filePath base = normalize path ↔ FoundFrom base (normalize path) := by
  have hslash : '/' ∉ m.main.toList :=
    hmain ▸ notMem_withoutEnding (notMem_basename (normalize path))
  obtain ⟨habs, hresolved, hscript⟩ := resolved_filePath hslash base
  rw [hlocation, (resolved_join_relative base (dirname (normalize path))).1] at habs
  rw [hlocation] at hresolved
  -- For a script the rest is a question about directories.
  have hdirectory : ∀ front stem, resolved path = front ++ [stem ++ scriptEnding] →
      isAbsolute path = isAbsolute base →
      (resolved (join base (relative base (dirname (normalize path)))) = front ↔
        climbs base ≤ climbs (normalize path)) := by
    intro front stem hpath hbegins
    obtain ⟨hdirAbs, hdir⟩ := resolved_dirname ((resolved_normalize path).trans hpath)
    rw [isAbsolute_normalize, hbegins] at hdirAbs
    have hclimbs : climbs (normalize path) = climbs (dirname (normalize path)) := by
      rw [climbs, climbs, hdir, resolved_normalize, hpath, List.count_append,
        count_above (List.forall_mem_singleton.mpr (isOrdinary_script stem)), Nat.add_zero]
    rw [hclimbs, ← resolved_join_relative_iff hdirAbs, hdir]
  constructor
  · intro h
    rw [h] at habs hresolved hscript
    obtain ⟨front, stem, hpath, -⟩ := exists_of_isScript_normalize hscript
    rw [resolved_normalize, hpath] at hresolved
    have hbegins : isAbsolute path = isAbsolute base := by rw [← isAbsolute_normalize path, habs]
    exact ⟨habs, (hdirectory front stem hpath hbegins).mp (List.append_inj' hresolved rfl).1.symm,
      hscript⟩
  · rintro ⟨hbegins, hclimbs, hisScript⟩
    obtain ⟨front, stem, hpath, hname⟩ := exists_of_isScript_normalize hisScript
    rw [isAbsolute_normalize] at hbegins
    rw [hmain, hname, withoutEnding_ofList, String.toList_ofList,
      (hdirectory front stem hpath hbegins).mpr hclimbs, ← hpath] at hresolved
    exact filePath_eq_normalize_iff.mpr ⟨habs.trans hbegins.symm, hresolved⟩

/-! ## Which entries lead back -/

/-- What an entry says of the first script `first` of a package. -/
structure Leads (p : Projection) (m : ModuleConfig) (name : String) (record : PackageRecord)
    (first : String) : Prop where
  listed : p.resolvedPath name record first ∈ p.filenames
  /-- The entry leads back to the file if and only if that is found from the base directory. -/
  back_iff : m.filePath p.baseDir = p.resolvedPath name record first ↔
    FoundFrom p.baseDir (p.resolvedPath name record first)
  /-- The path begins where the install directory does. -/
  begins : p.directory.isEmpty = false →
    isAbsolute (p.resolvedPath name record first) = isAbsolute p.directory
  unpatched : record.isPatched first = false → isScript (p.resolvedPath name record first) = true
  /-- An artifact is a script if there is a name in front of the ending. -/
  patched : '/' ∉ p.marker.toList → basename first ≠ ".js" →
    isScript (p.resolvedPath name record first) = true

theorem isAbsolute_resolvedPath (h : p.directory.isEmpty = false) :
    isAbsolute (p.resolvedPath name record file) = isAbsolute p.directory := by
  rw [resolvedPath, (resolved_join (isEmpty_join _ _) _).1, (resolved_join h name).1]

theorem leads_of_moduleConfig? (hentry : (name, record) ∈ p.packages.entries) {first : String}
    (hfirst : record.files.find? isScript = some first) :
    p.Leads (p.entryOf name (p.resolvedPath name record first)) name record first := by
  have hscript : isScript first = true := List.find?_some hfirst
  have hunpatched : record.isPatched first = false →
      isScript (p.resolvedPath name record first) = true := by
    intro h
    rw [resolvedPath, h]
    exact isScript_join (isEmpty_join _ _) hscript
  refine ⟨?_, ?_, isAbsolute_resolvedPath, hunpatched, fun hmarker hname => ?_⟩
  · exact List.mem_flatMap.mpr ⟨(name, record), hentry,
      List.mem_map_of_mem (List.mem_of_find?_eq_some hfirst)⟩
  · obtain ⟨path, hpath⟩ : ∃ path, p.resolvedPath name record first = normalize path :=
      ⟨_, join_eq_normalize _ _⟩
    rw [hpath]
    exact filePath_eq_iff (by rw [entryOf]) (by rw [entryOf])
  · cases hpatched : record.isPatched first with
    | false => exact hunpatched hpatched
    | true =>
      rw [resolvedPath, hpatched]
      exact isScript_join (isEmpty_join _ _) (isScript_patchedName hmarker hscript hname)

/-- **Which entries lead back to their files.** -/
theorem leads_back_iff (p : Projection) (hm : m ∈ p.moduleConfigs) :
    ∃ name record first, (name, record) ∈ p.packages.entries ∧
      record.files.find? isScript = some first ∧ p.Leads m name record first := by
  obtain ⟨⟨name, record⟩, hentry, hconfig⟩ := List.mem_filterMap.mp hm
  obtain ⟨first, hfirst, rfl⟩ := moduleConfig?_eq_some.mp hconfig
  exact ⟨name, record, first, hentry, hfirst, leads_of_moduleConfig? hentry hfirst⟩

/-- A package with one script. -/
def single (directory baseDir file : String) (patches : Option PatchSet) : Projection where
  packages := .ofList [("a", ⟨"1.0.0", ["a.css", file], patches⟩)]
  directory := directory
  baseDir := baseDir
  vendorPrefix := "vendor"
  marker := "es6"

/-- From a base directory beside the install directory the entry of a patched script leads back,
also if both lie outside the project. -/
theorem leads_back_beside :
    let p := single "../lib" "../app" "x/a.js" (some ⟨[("x/a.js", .transforms [])]⟩)
    let m : ModuleConfig := ⟨"vendor/a", "a.es6", "../lib/a/x"⟩
    m ∈ p.moduleConfigs ∧ m.filePath "../app" = "../lib/a/x/a.es6.js" ∧
      "../lib/a/x/a.es6.js" ∈ p.filenames := by
  intro p m
  have hm : m ∈ p.moduleConfigs := by decide +kernel
  obtain ⟨name, record, first, hentry, hfirst, hleads⟩ := leads_back_iff p hm
  obtain ⟨rfl, rfl⟩ := Prod.mk.inj (List.mem_singleton.mp hentry)
  have hfind : ["a.css", "x/a.js"].find? isScript = some "x/a.js" := by decide
  obtain rfl := Option.some.inj (hfirst.symm.trans hfind)
  have hpath :
      p.resolvedPath "a" ⟨"1.0.0", ["a.css", "x/a.js"], some ⟨[("x/a.js", .transforms [])]⟩⟩
      "x/a.js" = "../lib/a/x/a.es6.js" := by decide +kernel
  have hback := hleads.back_iff
  have hlisted := hleads.listed
  rw [hpath] at hback hlisted
  exact ⟨hm, hback.mpr ⟨by decide +kernel, by decide +kernel, by decide +kernel⟩, hlisted⟩

/-- Every entry leads back to the first script of its package. -/
def AllLeadBack (p : Projection) : Prop :=
  ∀ m ∈ p.moduleConfigs, ∃ name record first, (name, record) ∈ p.packages.entries ∧
    record.files.find? isScript = some first ∧
      m.filePath p.baseDir = p.resolvedPath name record first

theorem not_allLeadBack_single {directory baseDir : String} {patches : Option PatchSet}
    (hm : m ∈ (single directory baseDir file patches).moduleConfigs)
    (hfirst : ["a.css", file].find? isScript = some file)
    (h : m.filePath baseDir ≠ (single directory baseDir file patches).resolvedPath "a"
      ⟨"1.0.0", ["a.css", file], patches⟩ file) :
    ¬ (single directory baseDir file patches).AllLeadBack := by
  intro hall
  obtain ⟨name, record, first, hentry, hfind, hback⟩ := hall m hm
  obtain ⟨rfl, rfl⟩ := Prod.mk.inj (List.mem_singleton.mp hentry)
  obtain rfl := Option.some.inj (hfirst.symm.trans hfind)
  exact h hback

/-- From a base directory outside the project no entry leads back into it, and the artifact of a
file that is all ending is no script. -/
theorem not_all_lead_back :
    (isAbsolute "lib" = isAbsolute "../app" ∧ ¬ (single "lib" "../app" "a.js" none).AllLeadBack) ∧
      (isAbsolute "lib" = isAbsolute "src" ∧
        ¬ (single "lib" "src" ".js" (some ⟨[(".js", .transforms [])]⟩)).AllLeadBack) := by
  refine ⟨⟨rfl, not_allLeadBack_single (m := ⟨"vendor/a", "a", "../../lib/a"⟩) ?_ ?_ ?_⟩,
    ⟨rfl, not_allLeadBack_single (m := ⟨"vendor/a", ".js.es6", "../lib/a"⟩) ?_ ?_ ?_⟩⟩
  all_goals decide +kernel

end Projection

end Retrofit

import Retrofit.Proofs.Resolver.Manifest
import Retrofit.Proofs.Session.History
import Retrofit.Proofs.Session.Memo
import Retrofit.Resolver.Manager

/-!
# The first conditional update

A session that has just begun reads its settings, the manifest and the catalog in any order, and
lists what is installed. Then it updates if a package is missing.

**Missing packages.** A package has no record after the first listing if and only if it has no
metadata file (`contains_eq_false_iff`). So what the session finds missing by the names in the
manifest and the records in the map is what the scan has found missing by the metadata.

**Loading.** A stage that loads keeps the packages, the files and the remembered digest
(`loads_after`), and so do any number of them (`loads_afterAll`).

**Theorem (`readersAgree`).** Both readers of a manifest that is an object have the same names, and
a session asks for an update if and only if a package that the manifest declares has neither
metadata file.
-/

namespace Retrofit

variable {files : Files} {path directory name place : String} {info : PackageMeta}
  {tree : Dependencies} {catalog : Catalog}

/-! ## Packages without metadata -/

theorem Files.readText_eq_notFound :
    files.readText path = .error .notFound ↔ files.get path = .error .notFound := by
  unfold readText read
  cases files.get path with
  | error fault => simp [error_bind]
  | ok node =>
    cases node with
    | directory time => simp [ok_bind, error_bind]
    | file content time => cases htext : Text.decode? content <;> simp [ok_bind, htext]

/-- Neither of the files with metadata is there. -/
def Files.HasNoMetadata (files : Files) (directory : String) : Prop :=
  files.get (Path.under directory PackageMeta.installedName) = .error .notFound ∧
    files.get (Path.under directory Manifest.fileName) = .error .notFound

theorem Files.lacks_iff :
    files.Lacks directory name ↔ files.HasNoMetadata (Path.under directory name) := by
  rw [Lacks, HasNoMetadata, ← readText_eq_notFound, ← readText_eq_notFound,
    ← PackageMeta.read_eq_ok_none, ← PackageMeta.read_eq_ok_none]
  unfold PackageMeta.readInstalled
  cases PackageMeta.read files (Path.under (Path.under directory name) PackageMeta.installedName)
      with
  | error error => simp [error_bind]
  | ok found => cases found <;> simp [ok_bind, pure_eq_ok]

namespace Dependency

/-- A declared package gets no record if and only if it has no metadata. -/
theorem contains_eq_false_iff
    (h : describeBelow files directory (files.declaredNames.length + 1) [] info = .ok tree)
    (hinfo : Dictionary.keys info.dependencies ⊆ files.declaredNames)
    (hname : name ∈ Dictionary.keys info.dependencies) :
    (PackageMap.empty.flatten catalog place tree).contains name = false ↔
      files.Lacks directory name := by
  have hreach : Reachable files directory name info := .declared hname
  rw [PackageMap.contains_eq_isSome, Option.isSome_eq_false_iff, Option.isNone_iff_eq_none,
    Option.eq_none_iff_forall_not_mem]
  constructor
  · intro hnone
    obtain ⟨node, -, htells⟩ := exists_tells h hinfo hreach
    cases htells with
    | absent hlacks => exact hlacks
    | installed hinst =>
      exact absurd ((get?_flatten_eq_some_iff h hinfo).mpr ⟨hreach, _, hinst, rfl⟩) (hnone _)
  · intro hlacks record hrecord
    obtain ⟨-, child, hchild, -⟩ := (get?_flatten_eq_some_iff h hinfo).mp hrecord
    exact hchild.not_lacks hlacks

end Dependency

namespace Session

open Stage

variable {s : Session} {w : Workspace}

/-! ## Stages that load -/

/-- The stage reads settings, the manifest or the catalog. -/
def Kind.IsLoad : Kind → Prop
  | .loadConfig | .loadManifest | .loadCatalog => True
  | _ => False

/-- What stages leave. -/
def afterAll (s : Session) (kinds : List Kind) (w : Workspace) : Workspace :=
  kinds.foldl (fun w kind => s.after kind w) w

theorem afterAll_nil (s : Session) (w : Workspace) : s.afterAll [] w = w :=
  rfl

/-- What stages that load have kept, and that the manifest is the one among the files. -/
structure Loads (s : Session) (kinds : List Kind) (w w' : Workspace) : Prop where
  files : w'.files = w.files
  packages : w'.state.packages = w.state.packages
  manifestHash : w'.state.manifestHash = w.state.manifestHash
  manifest : .loadManifest ∈ kinds ∨ w.state.manifest = Manifest.load w.files s.options.root →
    w'.state.manifest = Manifest.load w.files s.options.root

theorem loads_after {kind : Kind} (hkind : kind.IsLoad) (w : Workspace) :
    Loads s [kind] w (s.after kind w) := by
  cases kind with
  | loadConfig =>
    show Loads s [.loadConfig] w (s.loadConfig.runOn w).2
    rw [runOn_loadConfig]
    exact ⟨rfl, rfl, rfl, fun h => h.elim (by simp) id⟩
  | loadManifest =>
    show Loads s [.loadManifest] w (s.loadManifest.runOn w).2
    rw [runOn_loadManifest]
    exact ⟨rfl, rfl, rfl, fun _ => rfl⟩
  | loadCatalog =>
    show Loads s [.loadCatalog] w (s.loadCatalog.runOn w).2
    rw [runOn_loadCatalog]
    cases (CatalogLocation.ofText s.options.patches s.options.root).load s.network w.files with
    | error error => exact ⟨rfl, rfl, rfl, fun h => h.elim (by simp) id⟩
    | ok catalog => exact ⟨rfl, rfl, rfl, fun h => h.elim (by simp) id⟩
  | _ => cases hkind

/-- Stages that load keep all that none of them has read. -/
theorem loads_afterAll {kinds : List Kind} (hkinds : ∀ kind ∈ kinds, kind.IsLoad) (w : Workspace) :
    Loads s kinds w (s.afterAll kinds w) := by
  induction kinds generalizing w with
  | nil => exact ⟨rfl, rfl, rfl, fun h => h.elim (by simp) id⟩
  | cons kind kinds ih =>
    obtain ⟨hkind, hkinds⟩ := List.forall_mem_cons.mp hkinds
    have hfirst := loads_after (s := s) hkind w
    have hrest := ih hkinds (s.after kind w)
    refine ⟨hrest.files.trans hfirst.files, hrest.packages.trans hfirst.packages,
      hrest.manifestHash.trans hfirst.manifestHash, fun h => ?_⟩
    have hmanifest := hrest.manifest
    rw [hfirst.files] at hmanifest
    refine hmanifest ?_
    obtain h | h := h
    · obtain rfl | h := List.mem_cons.mp h
      · exact .inr (hfirst.manifest (.inl (List.mem_singleton_self _)))
      · exact .inl h
    · exact .inr (hfirst.manifest (.inr h))

/-- A session has listed what is installed for the first time, among files whose manifest it has
loaded. -/
structure HasListed (s : Session) (files : Files) (config : ResolverConfig) (project : Dependency)
    (w : Workspace) : Prop where
  list : s.resolver.list config files = .ok project
  packages : ∃ catalog place, w.state.packages =
    PackageMap.empty.flatten catalog place project.dependencies
  manifestHash : w.state.manifestHash = none
  manifest : w.state.manifest = Manifest.load files s.options.root

theorem hasListed_of_listInstalled {earlier later : List Kind} {listed : Workspace}
    (hkinds : ∀ kind ∈ earlier ++ later, kind.IsLoad) (hloaded : .loadManifest ∈ earlier ++ later)
    (hlist : s.listInstalled.runOn (s.afterAll earlier { files }) = (.ok (), listed)) :
    ∃ project, s.HasListed files listed.state.config project (s.afterAll later listed) := by
  obtain ⟨hearlier, hlater⟩ := List.forall_mem_append.mp hkinds
  obtain ⟨project, hproject, hstate, hfiles⟩ := exists_tree_of_listInstalled hlist
  have hbefore : Loads s earlier { files } (s.afterAll earlier { files }) :=
    loads_afterAll hearlier _
  have hafter : Loads s later listed (s.afterAll later listed) := loads_afterAll hlater listed
  rw [hbefore.files] at hproject hfiles
  refine ⟨project, ?list, ?packages, ?manifestHash, ?manifest⟩
  case list =>
    rw [hstate]
    exact hproject
  case packages =>
    refine ⟨(s.afterAll earlier { files }).state.catalog,
      (s.afterAll earlier { files }).state.directory, ?_⟩
    rw [hafter.packages, hstate, record, hbefore.packages]
  case manifestHash =>
    rw [hafter.manifestHash, hstate]
    exact hbefore.manifestHash
  case manifest =>
    have hmanifest := hafter.manifest
    rw [hfiles] at hmanifest
    obtain h | h := List.mem_append.mp hloaded
    · refine hmanifest (.inr ?_)
      rw [hstate]
      exact hbefore.manifest (.inl h)
    · exact hmanifest (.inl h)

/-! ## Both readers agree -/

/-- The resolver of the session reads what is installed in its project. -/
def ReadsInstalled (s : Session) : Prop :=
  s.resolver = .readOnly s.options.root ∨ ∃ manager, s.resolver = .byManager manager s.options.root

theorem ReadsInstalled.list (h : s.ReadsInstalled) :
    s.resolver.list = Dependency.scan s.options.root := by
  obtain h | ⟨manager, h⟩ := h
  · rw [h]
    rfl
  · rw [h]
    rfl

/-- A session that has loaded the manifest and listed what is installed, with other stages that load
before and after it, asks for an update if and only if a package that the manifest declares has no
metadata. -/
def UpdatesForMissing (s : Session) (files : Files) : Prop :=
  ∀ earlier later listed, (∀ kind ∈ earlier ++ later, kind.IsLoad) →
    .loadManifest ∈ earlier ++ later →
    s.listInstalled.runOn (s.afterAll earlier { files }) = (.ok (), listed) →
    ∃ declared, (Manifest.load files s.options.root).dependencyNames = .ok declared ∧
      (Asks updateIfMissing s (s.afterAll later listed) ↔ ∃ name ∈ declared, files.HasNoMetadata
        (Path.under (Path.under s.options.root listed.state.config.installDirectory) name))

theorem HasListed.asks_iff {config : ResolverConfig} {project : Dependency}
    {manifest : Option PackageMeta} (h : s.HasListed files config project w)
    (hmanifest : PackageMeta.read files (Path.under s.options.root Manifest.fileName) =
      .ok manifest)
    (htree : Dependency.describeBelow files (Path.under s.options.root config.installDirectory)
      (files.declaredNames.length + 1) [] (manifest.getD {}) = .ok project.dependencies)
    (hdeclared : (Manifest.load files s.options.root).dependencyNames =
      .ok (Dictionary.keys (manifest.getD {}).dependencies)) :
    Asks updateIfMissing s w ↔
      ∃ name ∈ Dictionary.keys (manifest.getD {}).dependencies, files.HasNoMetadata
      (Path.under (Path.under s.options.root config.installDirectory) name) := by
  have hstale : ¬ UpToDate w.state := by
    rw [UpToDate, h.manifestHash]
    exact Option.some_ne_none _ ∘ Eq.symm
  have hinfo : Dictionary.keys (manifest.getD {}).dependencies ⊆ files.declaredNames := by
    cases manifest with
    | none => exact List.nil_subset _
    | some info => exact keys_subset_of_manifest hmanifest
  obtain ⟨catalog, place, hpackages⟩ := h.packages
  calc Asks updateIfMissing s w
    _ ↔ Lacks w.state := by
      rw [asks_updateIfMissing_iff, asks_updateAll_iff]
      exact and_iff_right hstale
    _ ↔ ∃ name ∈ Dictionary.keys (manifest.getD {}).dependencies,
      w.state.packages.contains name = false := by
      simp [Lacks, h.manifest, hdeclared]
    _ ↔ _ := by
      refine exists_congr fun name => and_congr_right fun hname => ?_
      rw [hpackages, Dependency.contains_eq_false_iff htree hinfo hname, Files.lacks_iff]

/-- **The session asks for what the scan has found missing.** -/
theorem updatesForMissing (hresolver : s.ReadsInstalled)
    (hobject : ∀ source, files.readText (Path.under s.options.root Manifest.fileName) = .ok source →
      Manifest.IsObject source) : s.UpdatesForMissing files := by
  intro earlier later listed hkinds hloaded hlist
  obtain ⟨project, hlisted⟩ := hasListed_of_listInstalled hkinds hloaded hlist
  have hscan := hlisted.list
  rw [hresolver.list] at hscan
  obtain ⟨manifest, hmanifest, htree⟩ := Dependency.describeBelow_of_scan hscan
  have hdeclared := Manifest.dependencyNames_load hobject hmanifest
  exact ⟨_, hdeclared, hlisted.asks_iff hmanifest htree hdeclared⟩

/-- **What is declared is what is scanned.** Both readers of a manifest have the same names, and so
a session that has listed what is installed for the first time asks for an update if and only if a
declared package is missing. -/
theorem readersAgree :
    (∀ source info, Manifest.IsObject source → PackageMeta.ofText source = .ok info →
      Manifest.ReadAlike source info) ∧
    ∀ (s : Session) (files : Files), s.ReadsInstalled →
      (∀ source, files.readText (Path.under s.options.root Manifest.fileName) = .ok source →
        Manifest.IsObject source) → s.UpdatesForMissing files :=
  ⟨fun _ _ => Manifest.readAlike_of_ofText, fun _ _ => updatesForMissing⟩

/-- A manifest with fields that only one of the readers looks at. -/
def declaring : String :=
  "\x7b\"name\":\"p\",\"main\":[\"x.js\"],\"size\":1e999,"
    ++ "\"dependencies\":\x7b\"b\":\"~1\",\"a\":\"\"\x7d\x7d"

/-- What the manifest says as metadata. -/
def declaredInfo : PackageMeta where
  name := some "p"
  main := some (.many ["x.js"])
  dependencies := [("a", ""), ("b", "~1")]

/-- The project with the manifest, in which one of two packages is installed. -/
def halfInstalled : Files where
  nodes := [
    ("/bower.json", .file (Text.encode declaring) 1),
    ("/bower_components", .directory 1),
    ("/bower_components/a", .directory 1),
    ("/bower_components/a/.bower.json", .file (Text.encode "\x7b\x7d") 1),
    ("/bower_components/b", .directory 1)]
  current := []

/-- A session that has loaded the manifest. -/
def loaded : Workspace :=
  reader.afterAll [.loadManifest] { files := halfInstalled }

/-- Both readers have both names, and the session asks for the package that is missing. -/
theorem readersAgree_halfInstalled :
    Manifest.IsObject declaring ∧ PackageMeta.ofText declaring = .ok declaredInfo ∧
      Manifest.ReadAlike declaring declaredInfo ∧ (reader.listInstalled.runOn loaded).1 = .ok () ∧
      Asks updateIfMissing reader (reader.listInstalled.runOn loaded).2 := by
  have hobject : Manifest.IsObject declaring := by
    have hmembers : (Draft.read declaring).1.members.length = 4 := by
      decide +kernel
    cases hdraft : (Draft.read declaring).1 with
    | object members fault => exact ⟨members, fault, hdraft⟩
    | _ =>
      rw [hdraft] at hmembers
      cases hmembers
  have hread : PackageMeta.ofText declaring = .ok declaredInfo := by
    decide +kernel
  have hsource : halfInstalled.readText (Path.under reader.options.root Manifest.fileName) =
      .ok declaring := by
    decide +kernel
  have hlist : (reader.listInstalled.runOn loaded).1 = .ok () := by
    decide +kernel
  have hnames : (Manifest.load halfInstalled reader.options.root).dependencyNames =
      .ok ["a", "b"] := by
    decide +kernel
  have hdirectory : Path.under (Path.under reader.options.root
      (reader.listInstalled.runOn loaded).2.state.config.installDirectory) "b" =
        "/bower_components/b" := by
    decide +kernel
  have hmissing : halfInstalled.HasNoMetadata "/bower_components/b" := by
    rw [Files.HasNoMetadata]
    decide +kernel
  obtain ⟨declared, hdeclared, hasks⟩ := readersAgree.2 reader halfInstalled (.inl rfl)
    (fun source h => by
      rw [hsource, Except.ok.injEq] at h
      exact h ▸ hobject)
    [.loadManifest] [] _ (by simp [Kind.IsLoad]) (by simp) (runOn_of_fst_eq hlist)
  rw [hnames, Except.ok.injEq] at hdeclared
  subst hdeclared
  rw [afterAll_nil, ← loaded] at hasks
  rw [← hdirectory] at hmissing
  exact ⟨hobject, hread, readersAgree.1 _ _ hobject hread, hlist,
    hasks.mpr ⟨"b", by simp, hmissing⟩⟩

end Session

end Retrofit

import Retrofit.Proofs.Except
import Retrofit.Proofs.Session.Stages

/-!
# Stages that fail

A later run starts from the state that the earlier ones have left, so a stage must not leave half of
what it was about to find out.

**Theorem (`allOrNothing`).** A stage that fails, for whatever cause, leaves the state exactly as it
was. One that succeeds changes it as a whole: a catalog comes with the time of its file, or without
one if it is from the network, the packages of a tree are recorded all together, and the digest of
the manifest is remembered only along with the packages of its update.

Each stage computes what may fail first, and changes the state last. The catalog and its time are
two fields, but there is nothing that can fail between the one and the other. What a stage did to
the files before it failed remains, since that was done by the resolver or by a pass of patches.

**Catalogs** (`CatalogLocation.Fails`). A file may be unreadable. For a URL the program may be built
without a network, and if it has one, there may be no answer, or one that has no success, or one
that breaks off. And what has been read may be malformed.
-/

namespace Retrofit

/-! ## Loading a catalog -/

namespace CatalogLocation

variable {network : Network} {files : Files} {location : CatalogLocation} {error : CatalogError}
  {loaded : LoadedCatalog}

/-- Why no catalog is loaded from a location. -/
inductive Fails (network : Network) (files : Files) : CatalogLocation → CatalogError → Prop where
  | unreadable {path : String} {fault : FileFault} (h : files.readText path = .error fault) :
      Fails network files (.file path) (.unreadable path fault)
  | disabled {url : String} (h : network = .disabled) :
      Fails network files (.remote url) (.networkDisabled url)
  | unanswered {url reason : String} {answer : String → Except String Response}
      (h : network = .enabled answer) (hanswer : answer url = .error reason) :
      Fails network files (.remote url) (.http reason)
  | refused {url : String} {answer : String → Except String Response} {response : Response}
      (h : network = .enabled answer) (hanswer : answer url = .ok response)
      (hstatus : response.isSuccess = false) :
      Fails network files (.remote url) (.status response.url response.status)
  | broken {url reason : String} {answer : String → Except String Response} {response : Response}
      (h : network = .enabled answer) (hanswer : answer url = .ok response)
      (hstatus : response.isSuccess = true) (hbody : response.body = .error reason) :
      Fails network files (.remote url) (.http reason)
  | malformed {location : CatalogLocation} {text : String} {modified : Option Nat} {flaw : Flaw}
      (h : location.read network files = .ok (text, modified))
      (hflaw : Catalog.ofText text = .error flaw) : Fails network files location (.malformed flaw)

/-- A catalog is what the text at its location says. What is from the network has no time. -/
structure Provides (network : Network) (files : Files) (location : CatalogLocation)
    (loaded : LoadedCatalog) : Prop where
  text : ∃ text, location.read network files = .ok (text, loaded.modified) ∧
    Catalog.ofText text = .ok loaded.catalog
  untimed : ∀ url, location = .remote url → loaded.modified = none

theorem fails_of_read (h : location.read network files = .error error) :
    location.Fails network files error := by
  cases location with
  | file path =>
    cases htext : files.readText path with
    | ok text => simp [read, htext] at h
    | error fault =>
      simp only [read, htext, Except.error.injEq] at h
      exact h ▸ .unreadable htext
  | remote url =>
    cases network with
    | disabled =>
      simp only [read, Network.fetch, Except.map, Except.error.injEq] at h
      exact h ▸ .disabled rfl
    | enabled answer =>
      cases hanswer : answer url with
      | error reason =>
        simp only [read, Network.fetch, hanswer, Except.map, Except.error.injEq] at h
        exact h ▸ .unanswered rfl hanswer
      | ok response =>
        cases hstatus : response.isSuccess with
        | false =>
          simp only [read, Network.fetch, hanswer, hstatus, Bool.false_eq_true,
            if_false, Except.map, Except.error.injEq] at h
          exact h ▸ .refused rfl hanswer hstatus
        | true =>
          cases hbody : response.body with
          | ok text => simp [read, Network.fetch, hanswer, hstatus, hbody, Except.map,
              mapError_ok] at h
          | error reason =>
            simp only [read, Network.fetch, hanswer, hstatus, hbody, if_true, Except.map,
              mapError_error, Except.error.injEq] at h
            exact h ▸ .broken rfl hanswer hstatus hbody

theorem fails_of_load (h : location.load network files = .error error) :
    location.Fails network files error := by
  unfold load at h
  cases hread : location.read network files with
  | error cause =>
    rw [hread, error_bind, Except.error.injEq] at h
    exact h ▸ fails_of_read hread
  | ok entry =>
    obtain ⟨text, modified⟩ := entry
    rw [hread, ok_bind] at h
    cases hcatalog : Catalog.ofText text with
    | ok catalog => simp [hcatalog] at h
    | error flaw =>
      simp only [hcatalog, Except.error.injEq] at h
      exact h ▸ .malformed hread hcatalog

theorem provides_of_load (h : location.load network files = .ok loaded) :
    location.Provides network files loaded := by
  unfold load at h
  cases hread : location.read network files with
  | error cause =>
    rw [hread] at h
    cases h
  | ok entry =>
    obtain ⟨text, modified⟩ := entry
    rw [hread, ok_bind] at h
    cases hcatalog : Catalog.ofText text with
    | error flaw => simp [hcatalog] at h
    | ok catalog =>
      simp only [hcatalog, Except.ok.injEq] at h
      subst h
      refine ⟨⟨text, hread, hcatalog⟩, ?_⟩
      rintro url rfl
      unfold read at hread
      cases hfetch : network.fetch url <;> simp [hfetch, Except.map] at hread
      exact hread.2.symm

end CatalogLocation

/-! ## Stages -/

variable {α : Type} {w : Workspace}

/-- A stage leaves the state as it was if it fails, and then for a cause; if it succeeds, the state
has changed as a whole. -/
def Stage.Settles (stage : Stage α) (w : Workspace) (cause : SessionError → Prop)
    (change : α → RunState → Prop) : Prop :=
  match stage.runOn w with
  | (.error error, left) => cause error ∧ left.state = w.state
  | (.ok value, left) => change value left.state

namespace Session

open Stage

variable {s : Session}

/-- The place of the catalog. -/
def location (s : Session) : CatalogLocation :=
  CatalogLocation.ofText s.options.patches s.options.root

/-- The catalog cannot be read, or is malformed. -/
def LacksCatalog (s : Session) (w : Workspace) (error : SessionError) : Prop :=
  ∃ cause, s.location.Fails s.network w.files cause ∧ error = .catalog s.location cause

/-- The resolver does not answer what is installed. -/
def LacksTree (s : Session) (w : Workspace) (error : SessionError) : Prop :=
  ∃ cause, s.resolver.list w.state.config w.files = .error cause ∧ error = .resolver cause

/-- An update is due, and the resolver fails to carry it out. -/
def LacksUpdate (s : Session) (w : Workspace) (error : SessionError) : Prop :=
  ¬ UpToDate w.state ∧ ∃ cause,
    (s.resolver.update [] s.options.offline w.state.config w.files).1 = .error cause ∧
      error = .resolver cause

/-- The manifest is malformed. -/
def LacksNames (w : Workspace) (error : SessionError) : Prop :=
  ∃ flaw, w.state.manifest.dependencyNames = .error flaw ∧ error = .manifest flaw

/-- Some files cannot be patched. -/
def LacksArtifacts (s : Session) (now : Nat) (w : Workspace) (error : SessionError) : Prop :=
  ∃ failures, (s.pass now w).outcome = .error failures ∧ error = .patch failures

/-- The state after an update: with the packages that have changed and the digest of the manifest,
or as it was if nothing was tried. -/
def renewed (state : RunState) : Option Dependencies → RunState
  | none => state
  | some changed => { record changed state with manifestHash := some state.manifest.hash }

/-- What every stage leaves of the state. -/
structure AllOrNothing (s : Session) (w : Workspace) : Prop where
  loadCatalog : s.loadCatalog.Settles w (s.LacksCatalog w) fun _ state =>
    ∃ loaded, s.location.Provides s.network w.files loaded ∧ state =
      { w.state with catalog := loaded.catalog, catalogModified := loaded.modified }
  listInstalled : s.listInstalled.Settles w (s.LacksTree w) fun _ state =>
    ∃ tree, s.resolver.list w.state.config w.files = .ok tree ∧
      state = record tree.dependencies w.state
  updateAll : s.updateAll.Settles w (s.LacksUpdate w) fun changed state =>
    state = renewed w.state changed
  updateIfMissing :
    s.updateIfMissing.Settles w (fun error => LacksNames w error ∨ s.LacksUpdate w error)
    fun changed state => state = renewed w.state changed
  patch : ∀ now, (s.patch now).Settles w (s.LacksArtifacts now w) fun _ state => state = w.state

theorem settles_loadCatalog (s : Session) (w : Workspace) :
    s.loadCatalog.Settles w (s.LacksCatalog w) fun _ state =>
      ∃ loaded, s.location.Provides s.network w.files loaded ∧ state =
        { w.state with catalog := loaded.catalog, catalogModified := loaded.modified } := by
  unfold Settles LacksCatalog location
  rw [runOn_loadCatalog]
  cases hload :
    (CatalogLocation.ofText s.options.patches s.options.root).load s.network w.files with
  | error cause => exact ⟨⟨cause, CatalogLocation.fails_of_load hload, rfl⟩, rfl⟩
  | ok loaded => exact ⟨loaded, CatalogLocation.provides_of_load hload, rfl⟩

theorem settles_listInstalled (s : Session) (w : Workspace) :
    s.listInstalled.Settles w (s.LacksTree w) fun _ state =>
      ∃ tree, s.resolver.list w.state.config w.files = .ok tree ∧
        state = record tree.dependencies w.state := by
  unfold Settles LacksTree
  rw [runOn_listInstalled]
  cases hlist : s.resolver.list w.state.config w.files with
  | error cause => exact ⟨⟨cause, rfl, rfl⟩, rfl⟩
  | ok tree => exact ⟨tree, rfl, rfl⟩

theorem settles_updateAll (s : Session) (w : Workspace) :
    s.updateAll.Settles w (s.LacksUpdate w) fun changed state => state =
      renewed w.state changed := by
  unfold Settles LacksUpdate
  by_cases h : UpToDate w.state
  · rw [runOn_updateAll_of_upToDate h]
    rfl
  · rw [runOn_updateAll h, tryUpdate]
    rcases s.resolver.update [] s.options.offline w.state.config w.files with
      ⟨cause | changed, files⟩
    · exact ⟨⟨h, cause, rfl, rfl⟩, rfl⟩
    · rfl

/-- A conditional update settles as the update does, if it gets that far. -/
theorem settles_updateIfMissing (s : Session) (w : Workspace) :
    s.updateIfMissing.Settles w (fun error => LacksNames w error ∨ s.LacksUpdate w error)
      fun changed state => state = renewed w.state changed := by
  have hupdate := settles_updateAll s w
  unfold Settles at hupdate ⊢
  rw [runOn_updateIfMissing]
  cases hnames : w.state.manifest.dependencyNames with
  | error flaw => exact ⟨.inl ⟨flaw, hnames, rfl⟩, rfl⟩
  | ok declared =>
    by_cases hlacking : lacking declared w.state = []
    · simp only [if_pos hlacking]
      rfl
    · simp only [if_neg hlacking]
      rcases hrun : s.updateAll.runOn w with ⟨cause | _ | changed, left⟩ <;> rw [hrun] at hupdate
      · exact ⟨.inr hupdate.1, hupdate.2⟩
      · exact hupdate
      · -- The warnings are events.
        exact hupdate

theorem settles_patch (s : Session) (w : Workspace) (now : Nat) :
    (s.patch now).Settles w (s.LacksArtifacts now w) fun _ state => state = w.state := by
  unfold Settles LacksArtifacts
  rw [runOn_patch]
  cases (s.pass now w).outcome with
  | error failures => exact ⟨⟨failures, rfl, rfl⟩, rfl⟩
  | ok report => rfl

/-- **A stage that fails leaves the state as it was.** -/
theorem allOrNothing (s : Session) (w : Workspace) : s.AllOrNothing w := by
  constructor
  case loadCatalog => exact settles_loadCatalog s w
  case listInstalled => exact settles_listInstalled s w
  case updateAll => exact settles_updateAll s w
  case updateIfMissing => exact settles_updateIfMissing s w
  case patch => exact settles_patch s w

end Session

end Retrofit

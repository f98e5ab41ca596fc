import Retrofit.Session.Stages

/-!
# What the stages do

One equation for each stage: what it answers, and what it leaves of the state, the files and the
events. A stage that is made of others goes from one to the next as long as none fails
(`Stage.runOn_bind`).
-/

namespace Retrofit

variable {s : Session} {w w' : Workspace}

namespace Stage

variable {α β : Type}

theorem runOn_bind (stage : Stage α) (next : α → Stage β) (w : Workspace) :
    (stage >>= next).runOn w =
      match stage.runOn w with
      | (.ok value, w) => (next value).runOn w
      | (.error error, w) => (.error error, w) := by
  unfold runOn
  simp only [ExceptT.run, StateT.run, bind, ExceptT.bind, ExceptT.mk, StateT.bind]
  obtain ⟨result, left⟩ := stage w
  cases result <;> rfl

theorem runOn_of_fst_eq {stage : Stage α} {result : Except SessionError α}
    (h : (stage.runOn w).1 = result) :
    stage.runOn w = (result, (stage.runOn w).2) := by
  rw [← h]

@[simp] theorem runOn_pure (value : α) (w : Workspace) :
    (pure value : Stage α).runOn w = (.ok value, w) :=
  rfl

@[simp] theorem runOn_get (w : Workspace) : (get : Stage Workspace).runOn w = (.ok w, w) :=
  rfl

@[simp] theorem runOn_modify (f : Workspace → Workspace) (w : Workspace) :
    (modify f : Stage Unit).runOn w = (.ok (), f w) :=
  rfl

@[simp] theorem runOn_state (w : Workspace) : state.runOn w = (.ok w.state, w) :=
  rfl

@[simp] theorem runOn_report (event : Event) (w : Workspace) :
    (report event).runOn w = (.ok (), { w with events := w.events ++ [event] }) :=
  rfl

@[simp] theorem runOn_reportAll (events : List Event) (w : Workspace) :
    (reportAll events).runOn w = (.ok (), { w with events := w.events ++ events }) :=
  rfl

@[simp] theorem runOn_update (f : RunState → RunState) (w : Workspace) :
    (update f).runOn w = (.ok (), { w with state := f w.state }) :=
  rfl

@[simp] theorem runOn_lift_ok {ε : Type} (wrap : ε → SessionError) (value : α) (w : Workspace) :
    (lift wrap (.ok value : Except ε α)).runOn w = (.ok value, w) :=
  rfl

@[simp] theorem runOn_lift_error {ε : Type} (wrap : ε → SessionError) (error : ε) (w : Workspace) :
    (lift wrap (.error error : Except ε α)).runOn w = (.error (wrap error), w) :=
  rfl

end Stage

namespace Session

open Stage

theorem runOn_loadConfig (s : Session) (w : Workspace) :
    s.loadConfig.runOn w =
      (.ok (), { w with state := { w.state with
        config := ResolverConfig.load w.files s.options.root
        directory := (ResolverConfig.load w.files s.options.root).installDirectory } }) :=
  rfl

theorem runOn_loadManifest (s : Session) (w : Workspace) :
    s.loadManifest.runOn w =
      (.ok (), { w with state := { w.state with
        manifest := Manifest.load w.files s.options.root } }) :=
  rfl

theorem runOn_loadCatalog (s : Session) (w : Workspace) :
    s.loadCatalog.runOn w =
      match (CatalogLocation.ofText s.options.patches s.options.root).load s.network w.files with
      | .ok loaded =>
        (.ok (), { w with
          state := { w.state with catalog := loaded.catalog, catalogModified := loaded.modified }
          events := w.events ++ [.section "Loading patch catalog"] })
      | .error error =>
        (.error (.catalog (CatalogLocation.ofText s.options.patches s.options.root) error),
          { w with events := w.events ++ [.section "Loading patch catalog"] }) := by
  simp only [loadCatalog, runOn_bind, runOn_report, runOn_get]
  cases (CatalogLocation.ofText s.options.patches s.options.root).load s.network w.files <;>
    simp

theorem runOn_listInstalled (s : Session) (w : Workspace) :
    s.listInstalled.runOn w =
      match s.resolver.list w.state.config w.files with
      | .ok tree =>
        (.ok (), { w with
          state := record tree.dependencies w.state
          events := w.events ++ [.section "Reading installed packages"] })
      | .error error =>
        (.error (.resolver error),
          { w with events := w.events ++ [.section "Reading installed packages"] }) := by
  simp only [listInstalled, runOn_bind, runOn_report, runOn_get]
  cases s.resolver.list w.state.config w.files <;> simp

theorem exists_tree_of_listInstalled (h : s.listInstalled.runOn w = (.ok (), w')) :
    ∃ tree, s.resolver.list w.state.config w.files = .ok tree ∧
      w'.state = record tree.dependencies w.state ∧ w'.files = w.files := by
  rw [runOn_listInstalled] at h
  cases htree : s.resolver.list w.state.config w.files with
  | error error =>
    rw [htree] at h
    cases h
  | ok tree =>
    rw [htree] at h
    cases h
    exact ⟨tree, rfl, rfl, rfl⟩

/-- The manifest is that of the last update. -/
def UpToDate (state : RunState) : Prop :=
  state.manifestHash = some state.manifest.hash

/-- What an update does that is tried. -/
def tryUpdate (s : Session) (w : Workspace) :
    Except SessionError (Option Dependencies) × Workspace :=
  match s.resolver.update [] s.options.offline w.state.config w.files with
  | (.ok changed, files) =>
    (.ok (some changed), {
      state := { record changed w.state with manifestHash := some w.state.manifest.hash }
      files
      events := w.events ++ [.section "Updating packages"] ++ changed.map installedEvent })
  | (.error error, files) =>
    (.error (.resolver error), { w with
      files
      events := w.events ++ [.section "Updating packages"] })

theorem runOn_updateAll_of_upToDate (h : UpToDate w.state) :
    s.updateAll.runOn w = (.ok none, w) := by
  unfold UpToDate at h
  simp [updateAll, runOn_bind, h]

theorem runOn_updateAll (h : ¬ UpToDate w.state) : s.updateAll.runOn w = s.tryUpdate w := by
  unfold UpToDate at h
  obtain ⟨options, ⟨list, install⟩, network⟩ := s
  simp only [updateAll, tryUpdate, runOn_bind, runOn_state, if_neg h, runOn_report, runOn_get]
  rcases install [] options.offline w.state.config w.files with ⟨error | changed, files⟩ <;> simp

/-- An update that succeeds was not tried, or the resolver has answered. -/
theorem exists_changed_of_updateAll {result : Option Dependencies}
    (h : s.updateAll.runOn w = (.ok result, w')) :
    (result = none ∧ w' = w) ∨
      ∃ changed files,
        s.resolver.update [] s.options.offline w.state.config w.files = (.ok changed, files) ∧
          result = some changed ∧ w'.files = files ∧
          w'.state =
            { record changed w.state with manifestHash := some w.state.manifest.hash } := by
  by_cases hhash : UpToDate w.state
  · rw [runOn_updateAll_of_upToDate hhash] at h
    cases h
    exact .inl ⟨rfl, rfl⟩
  · rw [runOn_updateAll hhash, tryUpdate] at h
    rcases hanswer : s.resolver.update [] s.options.offline w.state.config w.files with
      ⟨error | changed, files⟩ <;> rw [hanswer] at h <;> cases h
    exact .inr ⟨changed, files, rfl, rfl, rfl, rfl⟩

/-- Declared packages that have no record. -/
def lacking (declared : List String) (state : RunState) : List String :=
  declared.filter fun name => !state.packages.contains name

theorem runOn_updateIfMissing (s : Session) (w : Workspace) :
    s.updateIfMissing.runOn w =
      match w.state.manifest.dependencyNames with
      | .error flaw => (.error (.manifest flaw), w)
      | .ok declared =>
        if lacking declared w.state = [] then (.ok none, w)
        else match s.updateAll.runOn w with
          | (.error error, w) => (.error error, w)
          | (.ok none, w) => (.ok none, w)
          | (.ok (some changed), left) =>
            (.ok (some changed), { left with
              events := left.events ++
                (lacking (lacking declared w.state) left.state).map stillMissing }) := by
  simp only [updateIfMissing, runOn_bind, runOn_state]
  cases w.state.manifest.dependencyNames with
  | error flaw => rfl
  | ok declared =>
    simp only [runOn_lift_ok]
    by_cases h : lacking declared w.state = []
    · have hempty : (declared.filter fun name => !w.state.packages.contains name).isEmpty = true :=
        List.isEmpty_iff.mpr h
      rw [if_pos hempty, if_pos h, runOn_pure]
    · have hempty :
          ¬ (declared.filter fun name => !w.state.packages.contains name).isEmpty = true :=
        fun hempty => h (List.isEmpty_iff.mp hempty)
      rw [if_neg hempty, if_neg h, runOn_bind]
      rcases s.updateAll.runOn w with ⟨error | _ | changed, left⟩ <;> rfl

/-- The jobs of a pass. -/
def jobs (s : Session) (state : RunState) : List PatchJob :=
  state.packages.jobs s.options.root state.directory s.options.marker

/-- The pass of a session over a workspace. -/
def pass (s : Session) (now : Nat) (w : Workspace) : Pass :=
  Pass.run w.files s.options.vendorPrefix w.state.catalogModified now (s.jobs w.state)

/-- A pass changes the files and reports what was done. -/
theorem runOn_patch (s : Session) (now : Nat) (w : Workspace) :
    (s.patch now).runOn w =
      ((s.pass now w).outcome.mapError .patch,
        { w with
          files := (s.pass now w).files
          events := w.events ++ [.section "Patching"] ++ (s.pass now w).events }) := by
  have hlift : (s.patch now).runOn w =
      (lift .patch (s.pass now w).outcome : Stage PatchReport).runOn
        { w with
          files := (s.pass now w).files
          events := w.events ++ [.section "Patching"] ++ (s.pass now w).events } := rfl
  rw [hlift]
  cases (s.pass now w).outcome <;> rfl

end Session

end Retrofit

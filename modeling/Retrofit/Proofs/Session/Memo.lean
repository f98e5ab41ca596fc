import Mathlib.Data.List.Chain
import Retrofit.Proofs.Session.Failure

/-!
# When a session updates again

A session remembers for which manifest it has updated the packages, and does not ask the resolver
again as long as the manifest is the same. The digest is remembered by one stage, and the manifest
that it stands for is read by another, with any number of stages and changes of the files in
between.

**What asks.** A stage asks the resolver for an update if what it does depends on the answer
(`Asks`).

**Invariant (`manifestHash_play`).** Over any moves of a session the remembered digest is that of
the manifest at the last update that has succeeded, and it stays if there was none. A move that
updates finds another digest than the remembered one (`ne_of_renewal?_eq_some`).

**Theorem (`memoIsExact`).** So an update asks the resolver if and only if the digest of the
manifest is not the one at the last update that has succeeded; no two such updates in a row are for
the same digest; an update that fails is tried again; and a conditional update asks if and only if
an update would, and a declared package has no record.
-/

namespace Retrofit.Session

open Stage

variable {α β : Type} {s : Session} {w : Workspace} {options : ProjectOptions} {digest : String}

/-! ## Asking the resolver -/

/-- The session with a resolver that carries out updates in another way. -/
def answering (s : Session) (update : List String → Bool → ResolverConfig → Files →
    Except ResolverError Dependencies × Files) : Session :=
  { s with resolver := { s.resolver with update } }

/-- A stage asks the resolver for an update: what it does depends on how the resolver carries it
out. -/
def Asks (stage : Session → Stage α) (s : Session) (w : Workspace) : Prop :=
  ∃ update, (stage (s.answering update)).runOn w ≠ (stage s).runOn w

theorem exists_answer (h : ¬ UpToDate w.state)
    (result : Except SessionError (Option Dependencies)) :
    ∃ update, ((s.answering update).updateAll.runOn w).1 ≠ result := by
  cases result with
  | error error =>
    refine ⟨fun _ _ _ files => (.ok [], files), ?_⟩
    rw [runOn_updateAll h]
    exact nofun
  | ok changed =>
    refine ⟨fun _ _ _ files => (.error (.other ""), files), ?_⟩
    rw [runOn_updateAll h]
    exact nofun

theorem asks_updateAll_iff : Asks updateAll s w ↔ ¬ UpToDate w.state := by
  constructor
  · rintro ⟨update, hdiffer⟩ h
    rw [runOn_updateAll_of_upToDate h, runOn_updateAll_of_upToDate h] at hdiffer
    exact hdiffer rfl
  · intro h
    obtain ⟨update, hdiffer⟩ := exists_answer (s := s) h (s.updateAll.runOn w).1
    exact ⟨update, fun heq => hdiffer (congrArg Prod.fst heq)⟩

/-- A conditional update has the result of an update if a declared package has no record. -/
theorem fst_runOn_updateIfMissing {declared : List String}
    (hdeclared : w.state.manifest.dependencyNames = .ok declared)
    (h : lacking declared w.state ≠ []) :
    (s.updateIfMissing.runOn w).1 = (s.updateAll.runOn w).1 := by
  rw [runOn_updateIfMissing, hdeclared]
  dsimp only
  rw [if_neg h]
  rcases s.updateAll.runOn w with ⟨error | _ | changed, left⟩ <;> rfl

theorem runOn_updateIfMissing_of_complete {declared : List String}
    (hdeclared : w.state.manifest.dependencyNames = .ok declared)
    (h : lacking declared w.state = []) :
    s.updateIfMissing.runOn w = (.ok none, w) := by
  rw [runOn_updateIfMissing, hdeclared]
  exact if_pos h

theorem runOn_updateIfMissing_of_upToDate {declared : List String}
    (hdeclared : w.state.manifest.dependencyNames = .ok declared) (h : UpToDate w.state) :
    s.updateIfMissing.runOn w = (.ok none, w) := by
  rw [runOn_updateIfMissing, hdeclared, runOn_updateAll_of_upToDate h]
  exact ite_self _

theorem runOn_updateIfMissing_of_malformed {flaw : Flaw}
    (h : w.state.manifest.dependencyNames = .error flaw) :
    s.updateIfMissing.runOn w = (.error (.manifest flaw), w) := by
  rw [runOn_updateIfMissing, h]

/-- A package that the manifest declares has no record. -/
def Lacks (state : RunState) : Prop :=
  ∃ declared, state.manifest.dependencyNames = .ok declared ∧
    ∃ name ∈ declared, state.packages.contains name = false

theorem lacking_ne_nil_iff {declared : List String} {state : RunState} :
    lacking declared state ≠ [] ↔ ∃ name ∈ declared, state.packages.contains name = false := by
  simp [lacking, List.filter_eq_nil_iff]

theorem asks_updateIfMissing_iff :
    Asks updateIfMissing s w ↔ Asks updateAll s w ∧ Lacks w.state := by
  rw [asks_updateAll_iff]
  constructor
  · rintro ⟨update, hdiffer⟩
    cases hdeclared : w.state.manifest.dependencyNames with
    | error flaw =>
      rw [runOn_updateIfMissing_of_malformed hdeclared,
        runOn_updateIfMissing_of_malformed hdeclared]
        at hdiffer
      exact absurd rfl hdiffer
    | ok declared =>
      refine ⟨fun h => ?_, declared, hdeclared, lacking_ne_nil_iff.mp fun h => ?_⟩
      · rw [runOn_updateIfMissing_of_upToDate hdeclared h,
          runOn_updateIfMissing_of_upToDate hdeclared h] at hdiffer
        exact hdiffer rfl
      · rw [runOn_updateIfMissing_of_complete hdeclared h,
          runOn_updateIfMissing_of_complete hdeclared h] at hdiffer
        exact hdiffer rfl
  · rintro ⟨h, declared, hdeclared, hmissing⟩
    have hlacking := lacking_ne_nil_iff.mpr hmissing
    obtain ⟨update, hdiffer⟩ := exists_answer (s := s) h (s.updateAll.runOn w).1
    refine ⟨update, fun heq => hdiffer ?_⟩
    rw [← fst_runOn_updateIfMissing hdeclared hlacking, heq,
      fst_runOn_updateIfMissing hdeclared hlacking]

/-! ## Moves of a session -/

/-- The stages of a session. -/
inductive Kind where
  | loadConfig
  | loadManifest
  | loadCatalog
  | listInstalled
  | updateAll
  | updateIfMissing
  | patch (now : Nat)

/-- What happens in a session. -/
inductive Move where
  /-- Others change the files, and take the events. -/
  | others (files : Files) (events : List Event)
  /-- A stage is run, with a resolver and a network that may answer in their own way every time. -/
  | stage (resolver : Resolver) (network : Network) (kind : Kind)

/-- What a stage leaves. -/
def after (s : Session) : Kind → Workspace → Workspace
  | .loadConfig, w => (s.loadConfig.runOn w).2
  | .loadManifest, w => (s.loadManifest.runOn w).2
  | .loadCatalog, w => (s.loadCatalog.runOn w).2
  | .listInstalled, w => (s.listInstalled.runOn w).2
  | .updateAll, w => (s.updateAll.runOn w).2
  | .updateIfMissing, w => (s.updateIfMissing.runOn w).2
  | .patch now, w => ((s.patch now).runOn w).2

/-- The digest of the manifest, if an update for it has been tried and has succeeded. -/
def renewal (stage : Stage (Option Dependencies)) (w : Workspace) : Option String :=
  (stage.runOn w).1.toOption.join.map fun _ => w.state.manifest.hash

namespace Move

/-- What a move leaves. -/
def perform (options : ProjectOptions) : Move → Workspace → Workspace
  | .others files events, w => { w with files, events }
  | .stage resolver network kind, w => (mk options resolver network).after kind w

/-- The digest of the manifest for which a move has updated the packages. -/
def renewal? (options : ProjectOptions) : Move → Workspace → Option String
  | .stage resolver network .updateAll, w => renewal (mk options resolver network).updateAll w
  | .stage resolver network .updateIfMissing, w =>
    renewal (mk options resolver network).updateIfMissing w
  | _, _ => none

end Move

/-- What moves leave. -/
def play (options : ProjectOptions) (moves : List Move) (w : Workspace) : Workspace :=
  moves.foldl (fun w move => move.perform options w) w

/-- The digests of the manifest for which moves have updated the packages, in order. -/
def renewals (options : ProjectOptions) : List Move → Workspace → List String
  | [], _ => []
  | move :: moves, w =>
    (move.renewal? options w).toList ++ renewals options moves (move.perform options w)

/-! ## The remembered digest -/

theorem manifestHash_of_settles {stage : Stage (Option Dependencies)} {cause : SessionError → Prop}
    (h : stage.Settles w cause fun changed state => state = renewed w.state changed) :
    (stage.runOn w).2.state.manifestHash = (renewal stage w).or w.state.manifestHash := by
  unfold Settles at h
  unfold renewal
  rcases hrun : stage.runOn w with ⟨error | _ | changed, left⟩ <;> rw [hrun] at h
  · exact congrArg RunState.manifestHash h.2
  · exact congrArg RunState.manifestHash h
  · exact congrArg RunState.manifestHash h

/-- A stage that loads, lists or patches keeps the remembered digest. -/
theorem manifestHash_perform (move : Move) (w : Workspace) :
    (move.perform options w).state.manifestHash =
      (move.renewal? options w).or w.state.manifestHash := by
  cases move with
  | others files events => rfl
  | stage resolver network kind =>
    cases kind with
    | loadConfig => rfl
    | loadManifest => rfl
    | loadCatalog =>
      show ((mk options resolver network).loadCatalog.runOn w).2.state.manifestHash =
        w.state.manifestHash
      rw [runOn_loadCatalog]
      cases (CatalogLocation.ofText options.patches options.root).load network w.files <;> rfl
    | listInstalled =>
      show ((mk options resolver network).listInstalled.runOn w).2.state.manifestHash =
        w.state.manifestHash
      rw [runOn_listInstalled]
      cases resolver.list w.state.config w.files <;> rfl
    | updateAll => exact manifestHash_of_settles (settles_updateAll _ w)
    | updateIfMissing => exact manifestHash_of_settles (settles_updateIfMissing _ w)
    | patch now =>
      show (((mk options resolver network).patch now).runOn w).2.state.manifestHash =
        w.state.manifestHash
      rw [runOn_patch]

/-- The remembered digest is that of the last update, over any moves. -/
theorem manifestHash_play (moves : List Move) (w : Workspace) :
    (play options moves w).state.manifestHash =
      (renewals options moves w).getLast?.or w.state.manifestHash := by
  induction moves generalizing w with
  | nil => rfl
  | cons move moves ih =>
    have hplay : play options (move :: moves) w = play options moves (move.perform options w) := rfl
    rw [hplay, ih, manifestHash_perform, renewals, List.getLast?_append, Option.or_assoc]
    cases move.renewal? options w <;> rfl

/-- A stage that leaves everything as it is for the remembered digest updates for others only. -/
theorem ne_of_renewal {stage : Stage (Option Dependencies)}
    (hstage : UpToDate w.state → (stage.runOn w).1.toOption.join = none)
    (h : renewal stage w = some digest) : w.state.manifestHash ≠ some digest := by
  intro hhash
  obtain ⟨changed, hchanged, rfl⟩ := Option.map_eq_some_iff.mp h
  rw [hstage hhash] at hchanged
  cases hchanged

/-- An update is tried only if the remembered digest is another one. -/
theorem ne_of_renewal?_eq_some {move : Move} (h : move.renewal? options w = some digest) :
    w.state.manifestHash ≠ some digest := by
  cases move with
  | others files events => cases h
  | stage resolver network kind =>
    cases kind with
    | updateAll =>
      refine ne_of_renewal (fun hdate => ?_) h
      rw [runOn_updateAll_of_upToDate hdate]
      rfl
    | updateIfMissing =>
      refine ne_of_renewal (fun hdate => ?_) h
      cases hdeclared : w.state.manifest.dependencyNames with
      | error flaw =>
        rw [runOn_updateIfMissing_of_malformed hdeclared]
        rfl
      | ok declared =>
        rw [runOn_updateIfMissing_of_upToDate hdeclared hdate]
        rfl
    | _ => cases h

/-- No two updates in a row are for the same digest, and the first is not for the remembered one. -/
theorem isChain_renewals (moves : List Move) (w : Workspace) :
    (w.state.manifestHash.toList ++ renewals options moves w).IsChain (· ≠ ·) := by
  induction moves generalizing w with
  | nil => cases w.state.manifestHash <;> simp [renewals]
  | cons move moves ih =>
    have hrest := ih (move.perform options w)
    rw [manifestHash_perform] at hrest
    rw [renewals]
    cases hrenewal : move.renewal? options w with
    | none =>
      rw [hrenewal] at hrest
      exact hrest
    | some digest =>
      rw [hrenewal] at hrest
      have hne := ne_of_renewal?_eq_some hrenewal
      cases hhash : w.state.manifestHash with
      | none => exact hrest
      | some remembered =>
        rw [hhash] at hne
        exact hrest.cons_cons fun heq => hne (congrArg some heq)

/-! ## Updates -/

/-- How a session goes on after some moves, in which the resolver has updated the packages for the
digests `renewals options moves { files }`. -/
structure MemoIsExact (options : ProjectOptions) (files : Files) (moves : List Move) : Prop where
  /-- An update asks the resolver unless the digest is that of the last update. -/
  asks_iff : ∀ resolver network,
    Asks updateAll (mk options resolver network) (play options moves { files }) ↔
      (renewals options moves { files }).getLast? ≠
        some (play options moves { files }).state.manifest.hash
  distinct : (renewals options moves { files }).IsChain (· ≠ ·)
  /-- An update that has failed asks again, as long as no update for the same manifest succeeds. -/
  retried : ∀ resolver network error left,
    (mk options resolver network).updateAll.runOn (play options moves { files }) =
      (.error error, left) →
    ∀ later, left.state.manifest.hash ∉ renewals options later left →
    (play options later left).state.manifest = left.state.manifest →
    left.state.manifest = (play options moves { files }).state.manifest ∧
      ∀ resolver' network', Asks updateAll (mk options resolver' network') (play options later left)
  /-- A conditional update asks as well if a declared package has no record. -/
  missing : ∀ resolver network,
    Asks updateIfMissing (mk options resolver network) (play options moves { files }) ↔
      Asks updateAll (mk options resolver network) (play options moves { files }) ∧
        Lacks (play options moves { files }).state

/-- After a failure the remembered digest is still another one, until an update for the manifest
succeeds. -/
theorem not_upToDate_of_failed {error : SessionError} {left : Workspace} {later : List Move}
    (h : s.updateAll.runOn w = (.error error, left))
    (hlater : left.state.manifest.hash ∉ renewals options later left)
    (hmanifest : (play options later left).state.manifest = left.state.manifest) :
    left.state = w.state ∧ ¬ UpToDate (play options later left).state := by
  have hsettles := settles_updateAll s w
  unfold Settles at hsettles
  rw [h] at hsettles
  obtain ⟨⟨hstale, -⟩, hstate⟩ := hsettles
  refine ⟨hstate, fun hdate => ?_⟩
  unfold UpToDate at hdate
  rw [manifestHash_play, hmanifest] at hdate
  cases hlast : (renewals options later left).getLast? with
  | none =>
    rw [hlast, Option.none_or, hstate] at hdate
    exact hstale hdate
  | some digest =>
    rw [hlast, Option.some_or, Option.some.injEq] at hdate
    exact hlater (hdate ▸ List.mem_of_getLast? hlast)

/-- **A session updates again exactly if the manifest is another one.** -/
theorem memoIsExact (options : ProjectOptions) (files : Files) (moves : List Move) :
    MemoIsExact options files moves := by
  constructor
  case asks_iff =>
    intro resolver network
    rw [asks_updateAll_iff, UpToDate, manifestHash_play, Option.or_none]
  case distinct =>
    exact isChain_renewals moves { files }
  case retried =>
    intro resolver network error left h later hlater hmanifest
    obtain ⟨hstate, hstale⟩ := not_upToDate_of_failed h hlater hmanifest
    exact ⟨congrArg RunState.manifest hstate, fun _ _ => asks_updateAll_iff.mpr hstale⟩
  case missing =>
    exact fun _ _ => asks_updateIfMissing_iff

end Retrofit.Session

import Retrofit.Catalog.Basic
import Retrofit.Proofs.Dictionary
import Retrofit.Proofs.Version.Selection

/-!
# Which patches serve a version

`Catalog.patchesFor?` looks up the patches under the selected tag. The tag `0.0.0` stands for "no
version applies", but it is looked up like any other, and a catalog may have an entry under it.

**Soundness** (`patchesFor?_serves_iff`). The patches that are found are those of a tag that serves
the version, unless the package has an entry under `0.0.0` and the version is no version or below
zero. In that case this entry is found although it does not serve
(`patchesFor?_not_sound`).

**Completeness** (`patchesFor?_best_iff`). The patches of the best tag are found exactly if a tag
above zero applies, or the package has an entry under `0.0.0` itself and the version is not below
zero. Another spelling of zero, or a pre-release of it, is never selected
(`patchesFor?_not_complete`).
-/

namespace Retrofit.Catalog

open Tag Version

/-- The patch set that is stored for a package under a tag as it is written. -/
def stored? (catalog : Catalog) (name tag : String) : Option PatchSet :=
  (Dictionary.get? name catalog).bind (Dictionary.get? tag)

theorem patchesFor?_eq_stored? (catalog : Catalog) (name version : String) :
    catalog.patchesFor? name version = catalog.stored? name (catalog.selectVersion name version) :=
  rfl

theorem exists_stored?_iff_mem {catalog : Catalog} {name tag : String} :
    (∃ set, catalog.stored? name tag = some set) ↔ tag ∈ catalog.versions name := by
  cases h : Dictionary.get? name catalog with
  | none => simp [stored?, versions, h]
  | some versions =>
    simp only [stored?, Catalog.versions, h, Option.bind_some, Option.map_some, Option.getD_some]
    exact Dictionary.exists_get?_iff_mem_keys

variable {catalog : Catalog} {name version : String} {target : Version}

/-! ## The selected tag -/

/-- The tag `0.0.0` serves the versions from zero on. -/
theorem serves_none_iff :
    Serves version Tag.none ↔ ∃ target, ofTag? version = some target ∧ zero ≤ target := by
  simp [Serves, Applies, ofTag?_none]

/-- The selected tag serves the version or is the tag `0.0.0`. -/
theorem serves_or_eq_none (catalog : Catalog) (name version : String) :
    Serves version (catalog.selectVersion name version) ∨
      catalog.selectVersion name version = Tag.none := by
  cases h : ofTag? version with
  | none => exact .inr (select_of_unreadable h)
  | some target =>
    by_cases habove : SomeAboveZero target (catalog.versions name)
    · exact .inl ⟨target, h, (select_best h habove).applies⟩
    · exact .inr (select_eq_none h habove)

/-- A version that `0.0.0` does not serve selects it all the same, whatever the tags are. -/
theorem selectVersion_of_not_serves (h : ¬ Serves version Tag.none) :
    catalog.selectVersion name version = Tag.none := by
  cases hversion : ofTag? version with
  | none => exact select_of_unreadable hversion
  | some target =>
    refine select_eq_none hversion ?_
    rintro ⟨_, _, v, _, hpos, hle⟩
    exact h (serves_none_iff.mpr ⟨target, hversion, hpos.le.trans hle⟩)

/-! ## Soundness -/

/-- **Soundness.** The patches that are found are those of a tag that serves the version, exactly
if an entry under `0.0.0` is absent or serves the version itself. And where no tag serves the
version, nothing is found exactly if there is no such entry. -/
theorem patchesFor?_serves_iff (catalog : Catalog) (name version : String) :
    ((∀ set, catalog.patchesFor? name version = some set →
        catalog.stored? name (catalog.selectVersion name version) = some set ∧
          Serves version (catalog.selectVersion name version)) ↔
      (Tag.none ∈ catalog.versions name → ∃ target, ofTag? version = some target ∧ zero ≤ target)) ∧
    ((∀ tag ∈ catalog.versions name, ¬ Serves version tag) →
      (catalog.patchesFor? name version = .none ↔ Tag.none ∉ catalog.versions name)) := by
  rw [← serves_none_iff, patchesFor?_eq_stored?]
  refine ⟨⟨fun hsound hmem => ?_, fun hzero set hset => ⟨hset, ?_⟩⟩, fun hnone => ?_⟩
  · by_contra hserves
    obtain ⟨set, hset⟩ := exists_stored?_iff_mem.mpr hmem
    have hselected : catalog.selectVersion name version = Tag.none :=
      selectVersion_of_not_serves hserves
    rw [hselected] at hsound
    exact hserves (hsound set hset).2
  · rcases serves_or_eq_none catalog name version with hserves | hselected
    · exact hserves
    · rw [hselected] at hset ⊢
      exact hzero (exists_stored?_iff_mem.mp ⟨set, hset⟩)
  · rw [Option.eq_none_iff_forall_ne_some, ← not_exists, exists_stored?_iff_mem]
    rcases serves_or_eq_none catalog name version with hserves | hselected
    · have habsent : catalog.selectVersion name version ∉ catalog.versions name :=
        fun hmem => hnone _ hmem hserves
      refine iff_of_true habsent fun hmem => habsent ?_
      rwa [selectVersion_of_not_serves (hnone _ hmem)]
    · rw [hselected]

/-- An entry under `0.0.0` is found for a text that is no version. -/
theorem patchesFor?_not_sound :
    ¬ ∀ (catalog : Catalog) (name version : String) (set : PatchSet),
      catalog.patchesFor? name version = some set →
        ∃ tag, catalog.stored? name tag = some set ∧ Serves version tag := by
  intro h
  have hfound : patchesFor? [("widget", [("0.0.0", .empty)])] "widget" "latest" = some .empty := by
    decide
  obtain ⟨tag, _, target, htarget, _⟩ := h _ _ _ _ hfound
  have hlatest : ofTag? "latest" = .none := by decide
  rw [hlatest] at htarget
  contradiction

/-! ## Completeness -/

/-- **Completeness.** For a version that can be read, the patches of the best tag are found exactly
if a tag above zero applies, or there is an entry under `0.0.0` and the version is not below
zero. -/
theorem patchesFor?_best_iff (catalog : Catalog) (name : String) {version : String}
    {target : Version} (h : ofTag? version = some target) :
    (∃ set, catalog.patchesFor? name version = some set ∧
        catalog.stored? name (catalog.selectVersion name version) = some set ∧
        Best target (catalog.versions name) (catalog.selectVersion name version)) ↔
      SomeAboveZero target (catalog.versions name) ∨
        Tag.none ∈ catalog.versions name ∧ zero ≤ target := by
  constructor
  · rintro ⟨set, -, -, hbest⟩
    by_cases habove : SomeAboveZero target (catalog.versions name)
    · exact .inl habove
    · rw [selectVersion, select_eq_none h habove] at hbest
      obtain ⟨v, hv, hle⟩ := hbest.applies
      rw [ofTag?_none, Option.some.injEq] at hv
      exact .inr ⟨hbest.mem, hv ▸ hle⟩
  · intro hcond
    have hbest : Best target (catalog.versions name) (catalog.selectVersion name version) := by
      by_cases habove : SomeAboveZero target (catalog.versions name)
      · exact select_best h habove
      · obtain ⟨hmem, hle⟩ := hcond.resolve_left habove
        rw [selectVersion, select_eq_none h habove]
        refine ⟨hmem, ⟨zero, ofTag?_none, hle⟩, fun other hother v w hv hw hwle => ?_⟩
        rw [ofTag?_none, Option.some.injEq] at hv
        exact hv ▸ not_lt.mp fun hpos => habove ⟨other, hother, w, hw, hpos, hwle⟩
    obtain ⟨set, hset⟩ := exists_stored?_iff_mem.mpr hbest.mem
    exact ⟨set, hset, hset, hbest⟩

/-- Of the tags `latest`, `0`, `1.1` and `v1.3`, the last is the best for 1.3.1. -/
theorem patchesFor?_best_v1_3 :
    ofTag? "1.3.1" = some ⟨1, 3, 1, [], []⟩ ∧
      ∃ set, patchesFor? [("widget", [("0", .empty), ("1.1", .empty), ("latest", .empty),
          ("v1.3", ⟨[("index.js", .transforms [])]⟩)])] "widget" "1.3.1" = some set ∧
        stored? [("widget", [("0", .empty), ("1.1", .empty), ("latest", .empty),
          ("v1.3", ⟨[("index.js", .transforms [])]⟩)])] "widget" "v1.3" = some set ∧
        Best ⟨1, 3, 1, [], []⟩ ["0", "1.1", "latest", "v1.3"] "v1.3" := by
  have h : ofTag? "1.3.1" = some ⟨1, 3, 1, [], []⟩ := by decide
  refine ⟨h, (patchesFor?_best_iff [("widget", [("0", .empty), ("1.1", .empty),
    ("latest", .empty), ("v1.3", ⟨[("index.js", .transforms [])]⟩)])] "widget" h).mpr (.inl ?_)⟩
  exact ⟨"v1.3", by decide, ⟨1, 3, 0, [], []⟩, by decide, by decide, by decide⟩

/-- The tag `0` applies to 1.0.0, and its patches are not found. -/
theorem patchesFor?_not_complete :
    ¬ ∀ (catalog : Catalog) (name version : String) (target : Version),
      ofTag? version = some target → (∃ tag ∈ catalog.versions name, Applies target tag) →
        ∃ set tag, catalog.patchesFor? name version = some set ∧
          catalog.stored? name tag = some set ∧ Best target (catalog.versions name) tag := by
  intro h
  have happlies : Applies ⟨1, 0, 0, [], []⟩ "0" := ⟨zero, by decide, by decide⟩
  obtain ⟨set, tag, hfound, -⟩ := h [("widget", [("0", .empty)])] "widget" "1.0.0" ⟨1, 0, 0, [], []⟩
    (by decide) ⟨"0", by decide, happlies⟩
  have hnothing : patchesFor? [("widget", [("0", .empty)])] "widget" "1.0.0" = .none := by decide
  rw [hnothing] at hfound
  contradiction

end Retrofit.Catalog

import Mathlib.Order.Bounds.Basic
import Retrofit.Proofs.Version.Selection

/-!
# The selected version is a maximum

**Theorem (`Tag.selectsMaximum`).** For a requested version the selected tag names the greatest of
the candidates: version zero, and what the available tags name as far as it is not above the
requested version.

The rest follows from what the candidates are. They do not depend on the order in which the tags
come up, nor on tags that name no version or one that is too high (`candidates_congr`), and a higher
request has all of them (`candidates_mono`). So the selected version does not depend on these
either, and a higher request does not lower it.

That the loop finds the maximum is what `Choice` says of its last choice: a choice that is still the
one at the start is version zero, any other comes from the list, and none that applies is above it.
-/

namespace Retrofit.Tag

open Version

variable {requested : String} {target later v : Version} {available all : List String}

/-! ## Candidates -/

/-- The versions to select from: zero, and those that available tags name and that are not above the
requested one. -/
def candidates (target : Version) (available : List String) : Set Version :=
  {v | v = zero ∨ ∃ tag ∈ available, ofTag? tag = some v ∧ v ≤ target}

/-- The tag names no version, or one above the requested one. -/
def PassedOver (target : Version) (tag : String) : Prop :=
  ∀ v, ofTag? tag = some v → target < v

theorem candidates_mono (h : target ≤ later) (available : List String) :
    candidates target available ⊆ candidates later available := by
  rintro v (rfl | ⟨tag, hmem, hv, hle⟩)
  · exact .inl rfl
  · exact .inr ⟨tag, hmem, hv, hle.trans h⟩

/-- Only tags that are not passed over count. -/
theorem candidates_congr
    (h : ∀ tag, ¬ PassedOver target tag → (tag ∈ all ↔ tag ∈ available)) :
    candidates target all = candidates target available := by
  have hcounts : ∀ {tag v}, ofTag? tag = some v → v ≤ target → ¬ PassedOver target tag := by
    intro tag v hv hle hpassed
    exact (hpassed v hv).not_ge hle
  ext v
  refine or_congr_right (exists_congr fun tag => ?_)
  constructor
  · rintro ⟨hmem, hv, hle⟩
    exact ⟨(h tag (hcounts hv hle)).mp hmem, hv, hle⟩
  · rintro ⟨hmem, hv, hle⟩
    exact ⟨(h tag (hcounts hv hle)).mpr hmem, hv, hle⟩

/-! ## The last choice -/

/-- A choice among all available tags that began at version zero names the greatest candidate. -/
theorem Choice.isGreatest {choice : Version × String}
    (h : Choice target (zero, none) available choice) :
    ofTag? choice.2 = some choice.1 ∧ IsGreatest (candidates target available) choice.1 := by
  have hupper : choice.1 ∈ upperBounds (candidates target available) := by
    rintro v (rfl | ⟨tag, hmem, hv, hle⟩)
    · exact h.start_le
    · exact h.greatest tag hmem v hv hle
  rcases h.origin with rfl | ⟨hmem, hof, hle, -⟩
  · exact ⟨ofTag?_none, .inl rfl, hupper⟩
  · exact ⟨hof, .inr ⟨choice.2, hmem, hof, hle⟩, hupper⟩

/-- The selected tag names the greatest candidate. -/
theorem exists_isGreatest (h : ofTag? requested = some target) (available : List String) :
    ∃ v, ofTag? (select requested available) = some v ∧
      IsGreatest (candidates target available) v := by
  rw [select_eq h]
  exact ⟨_, ((Choice.init target (zero, none)).foldl available).isGreatest⟩

/-- Lists with the same candidates select the same version. -/
theorem ofTag?_select_congr (h : ofTag? requested = some target)
    (hcandidates : candidates target all = candidates target available) :
    ofTag? (select requested all) = ofTag? (select requested available) := by
  obtain ⟨v, hv, hgreatest⟩ := exists_isGreatest h available
  obtain ⟨w, hw, hother⟩ := exists_isGreatest h all
  rw [hcandidates] at hother
  rw [hv, hw, hgreatest.unique hother]

/-! ## The selected version -/

/-- The selection from the available tags names a version, and what this depends on. -/
structure SelectsMaximum (requested : String) (target : Version) (available : List String)
    (v : Version) : Prop where
  selected : ofTag? (select requested available) = some v
  isGreatest : IsGreatest (candidates target available) v
  /-- The tags may come up in any order. -/
  orderFree : ∀ order, order.Perm available → ofTag? (select requested order) = some v
  /-- A higher request selects no lower version. -/
  monotone : ∀ other later, ofTag? other = some later → target ≤ later →
    ∃ w, ofTag? (select other available) = some w ∧ v ≤ w
  /-- Tags that are passed over may be added anywhere. -/
  addable : ∀ added all, (∀ tag ∈ added, PassedOver target tag) → all.Perm (added ++ available) →
    ofTag? (select requested all) = some v

/-- **The selected version is the maximum** of zero and all available versions that are not above
the requested one. -/
theorem selectsMaximum (h : ofTag? requested = some target) (available : List String) :
    ∃ v, SelectsMaximum requested target available v := by
  obtain ⟨v, hselected, hgreatest⟩ := exists_isGreatest h available
  have haddable : ∀ added all, (∀ tag ∈ added, PassedOver target tag) →
      all.Perm (added ++ available) → ofTag? (select requested all) = some v := by
    intro added all hadded hperm
    rw [ofTag?_select_congr h (candidates_congr fun tag hcounts => ?_), hselected]
    rw [hperm.mem_iff, List.mem_append]
    exact or_iff_right fun hmem => hcounts (hadded tag hmem)
  refine ⟨v, hselected, hgreatest, fun order hperm => ?_, ?_, haddable⟩
  · exact haddable [] order (List.forall_mem_nil _) hperm
  · intro other later hother hle
    obtain ⟨w, hw, hlater⟩ := exists_isGreatest hother available
    exact ⟨w, hw, hgreatest.mono hlater (candidates_mono hle available)⟩

/-- Of two tags for 1.2.0 the one with build metadata is above the other; `2` is too high and
`latest` names no version. -/
theorem selectsMaximum_build :
    ofTag? "=1.9" = some ⟨1, 9, 0, [], []⟩ ∧
      select "=1.9" ["v1.2", "2", "1.2.0+b", "latest", "1.2.0-rc.1"] = "1.2.0+b" ∧
      ∃ v, SelectsMaximum "=1.9" ⟨1, 9, 0, [], []⟩
        ["v1.2", "2", "1.2.0+b", "latest", "1.2.0-rc.1"] v := by
  have h : ofTag? "=1.9" = some ⟨1, 9, 0, [], []⟩ := by decide
  exact ⟨h, by decide +kernel, selectsMaximum h _⟩

end Retrofit.Tag

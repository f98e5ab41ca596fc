import Mathlib.Order.Basic
import Retrofit.Proofs.Catalog.Selection

/-!
# The order in which tags come up

`Tag.select` keeps the first of several tags that name the same version, so it matters in which
order the available tags come up. The tags of a package are the keys of a map that promises no
order, so any order may come up.

**What can be selected** (`exists_select_iff_best`). If a tag above zero applies, the tags that some
order selects are the best ones, each of them with an order of its own: the one that begins with it.

**Theorem (`Catalog.selection_order_iff`).** So the selected tag does not depend on the order if and
only if the best version is written in one way only, and the patches that are found do not depend on
it if and only if they are the same under all best tags.

Two ways to write a version are enough to make a difference (`Catalog.selection_not_order_free`).
-/

namespace Retrofit

namespace Tag

open Version

variable {requested tag : String} {target : Version} {available order : List String}
  {choice : Version × String}

/-! ## One version, several tags -/

/-- A choice remains if no other tag that applies names a version above it. -/
theorem foldl_prefer_of_greatest
    (h : ∀ other ∈ available, ∀ v, ofTag? other = some v → v ≤ target → v ≤ choice.1) :
    available.foldl (prefer target) choice = choice := by
  induction available with
  | nil => rfl
  | cons other rest ih =>
    obtain ⟨hother, hrest⟩ := List.forall_mem_cons.mp h
    have hkeep : prefer target choice other = choice := by
      cases hv : ofTag? other with
      | none => exact prefer_of_unreadable hv
      | some v =>
        rw [prefer_of_some hv, if_neg]
        rintro ⟨hle, hlt⟩
        exact hlt.not_ge (hother v hv hle)
    rw [List.foldl_cons, hkeep, ih hrest]

/-- A best tag that comes up first is selected. -/
theorem select_cons_of_best (h : ofTag? requested = some target)
    (habove : SomeAboveZero target available) (hbest : Best target available tag)
    (hrest : ∀ other ∈ order, other ∈ available) : select requested (tag :: order) = tag := by
  obtain ⟨v, hv, hle⟩ := hbest.applies
  obtain ⟨other, hother, w, hw, hpos, hwle⟩ := habove
  have hzero : zero < v := hpos.trans_le (hbest.greatest other hother v w hv hw hwle)
  rw [select_eq h, List.foldl_cons, prefer_of_some hv, if_pos ⟨hle, hzero⟩,
    foldl_prefer_of_greatest]
  exact fun other hother w hw hwle => hbest.greatest other (hrest other hother) v w hv hw hwle

/-! ## Any order -/

theorem SomeAboveZero.perm (h : SomeAboveZero target available) (hperm : order.Perm available) :
    SomeAboveZero target order := by
  obtain ⟨tag, hmem, hv⟩ := h
  exact ⟨tag, hperm.mem_iff.mpr hmem, hv⟩

theorem Best.of_perm (h : Best target order tag) (hperm : order.Perm available) :
    Best target available tag :=
  ⟨hperm.mem_iff.mp h.mem, h.applies, fun other hother =>
    h.greatest other (hperm.mem_iff.mpr hother)⟩

/-- The tags that some order selects are the best ones. -/
theorem exists_select_iff_best (h : ofTag? requested = some target)
    (habove : SomeAboveZero target available) :
    (∃ order, order.Perm available ∧ select requested order = tag) ↔ Best target available tag := by
  constructor
  · rintro ⟨order, hperm, rfl⟩
    exact (select_best h (habove.perm hperm)).of_perm hperm
  · intro hbest
    refine ⟨tag :: available.erase tag, (List.perm_cons_erase hbest.mem).symm, ?_⟩
    exact select_cons_of_best h habove hbest fun other hother => List.mem_of_mem_erase hother

/-- Where no tag above zero applies, every order selects the tag that stands for no version. -/
theorem select_perm_of_none (hperm : order.Perm available)
    (h : ∀ target, ofTag? requested = some target → ¬ SomeAboveZero target available) :
    select requested order = none := by
  cases htarget : ofTag? requested with
  | none => exact select_of_unreadable htarget
  | some target =>
    exact select_eq_none htarget fun habove => h target htarget (habove.perm hperm.symm)

/-- All best tags have the same value. -/
def BestAgree {α : Type} (requested : String) (available : List String) (value : String → α) :
    Prop :=
  ∀ target, ofTag? requested = some target → SomeAboveZero target available →
    ∀ tag other, Best target available tag → Best target available other → value tag = value other

/-- What a selected tag stands for does not depend on the order if and only if it is the same for
all best tags. -/
theorem select_perm_iff_bestAgree {α : Type} (requested : String) (available : List String)
    (value : String → α) :
    (∀ order, order.Perm available →
        value (select requested order) = value (select requested available)) ↔
      BestAgree requested available value := by
  constructor
  · intro hfree target htarget habove tag other htag hother
    obtain ⟨first, hfirst, rfl⟩ := (exists_select_iff_best htarget habove).mpr htag
    obtain ⟨second, hsecond, rfl⟩ := (exists_select_iff_best htarget habove).mpr hother
    rw [hfree first hfirst, hfree second hsecond]
  · intro hagree order hperm
    by_cases h : ∀ target, ofTag? requested = some target → ¬ SomeAboveZero target available
    · rw [select_perm_of_none hperm h, select_perm_of_none (List.Perm.refl available) h]
    · push Not at h
      obtain ⟨target, htarget, habove⟩ := h
      exact hagree target htarget habove _ _
        ((exists_select_iff_best htarget habove).mp ⟨order, hperm, rfl⟩)
        (select_best htarget habove)

end Tag

namespace Catalog

open Tag Version

/-- The patches for a version of a package, if the tags of the package come up in the given
order. -/
def patchesInOrder? (catalog : Catalog) (name version : String) (order : List String) :
    Option PatchSet :=
  catalog.stored? name (Tag.select version order)

/-- **When the order does not matter.** The selected tag does not depend on the order of the tags if
and only if there is one best tag. The patches that are found do not depend on it if and only if
they are the same under all best tags. -/
theorem selection_order_iff (requested : String) (available : List String) (catalog : Catalog)
    (name version : String) :
    ((∀ order, order.Perm available → Tag.select requested order = Tag.select requested available) ↔
        BestAgree requested available id) ∧
      ((∀ order, order.Perm (catalog.versions name) →
          catalog.patchesInOrder? name version order = catalog.patchesFor? name version) ↔
        BestAgree version (catalog.versions name) (catalog.stored? name)) :=
  ⟨select_perm_iff_bestAgree requested available id,
    select_perm_iff_bestAgree version (catalog.versions name) (catalog.stored? name)⟩

/-- Two ways to write version 1 select different tags and find different patches, each if it comes
up first. -/
theorem selection_not_order_free :
    (¬ ∀ (requested : String) (available order : List String), order.Perm available →
      Tag.select requested order = Tag.select requested available) ∧
    ¬ ∀ (catalog : Catalog) (name version : String) (order : List String),
      order.Perm (catalog.versions name) →
        catalog.patchesInOrder? name version order = catalog.patchesFor? name version := by
  have hperm : ["1.0.0", "1.0"].Perm ["1.0", "1.0.0"] := List.Perm.swap _ _ _
  constructor <;> intro h
  · exact absurd (h "1.0.0" ["1.0", "1.0.0"] ["1.0.0", "1.0"] hperm) (by decide)
  · exact absurd
      (h [("widget", [("1.0", ⟨[("a.js", .transforms [])]⟩), ("1.0.0", .empty)])] "widget"
      "1.0.0" ["1.0.0", "1.0"] hperm) (by decide)

end Catalog

end Retrofit

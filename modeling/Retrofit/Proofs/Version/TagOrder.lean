import Retrofit.Proofs.Version.Order
import Retrofit.Version.Tag

/-!
# Tags are totally ordered

**Precedence** (`Version.Precedes`). The order that semantic versions prescribe: the numbers count
one after the other, a pre-release is below its release, and two pre-releases are told apart by
their first different identifier, where numbers count by value and are below names. Build metadata
does not count. `cmpPrecedence` decides it (`cmpPrecedence_eq_lt`).

**Theorem (`Tag.ordersTags`).** `Tag.cmp` is a total order of all texts, whether they name a version
or not. Only equal texts compare equal, texts that name no version come first, and two versions that
differ in more than their build metadata are in the order of precedence. So sorting gives one list
for all orders of the input.

The comparison looks at the versions first and at the texts second, so it has the laws that these
two comparisons have (`cmp_eq_compareLex`). That no two texts are confused is due to the second.
-/

namespace Retrofit

open Std (ReflCmp OrientedCmp TransCmp LawfulEqCmp)

/-! ## Precedence -/

/-- Identifiers of a pre-release: numbers by value, names by their characters, numbers below
names. -/
inductive PreIdentifier.Below : PreIdentifier → PreIdentifier → Prop where
  | numbers {m n : Nat} (h : m < n) : Below (.number m) (.number n)
  | names {s t : String} (h : s < t) : Below (.name s) (.name t)
  | mixed (n : Nat) (s : String) : Below (.number n) (.name s)

namespace Version

variable {v w : Version}

/-- The first list of identifiers belongs to a pre-release, and the second to a release or to a
pre-release that is above it by its first different identifier. -/
def PreBelow (pre other : List PreIdentifier) : Prop :=
  pre ≠ [] ∧ (other = [] ∨ List.Lex PreIdentifier.Below pre other)

/-- The precedence of versions. -/
def Precedes (v w : Version) : Prop :=
  v.major < w.major ∨ v.major = w.major ∧
    (v.minor < w.minor ∨ v.minor = w.minor ∧
      (v.patch < w.patch ∨ v.patch = w.patch ∧ PreBelow v.pre w.pre))

/-- The versions differ in their build metadata at most. -/
def SamePrecedence (v w : Version) : Prop :=
  v.major = w.major ∧ v.minor = w.minor ∧ v.patch = w.patch ∧ v.pre = w.pre

theorem cmpText_eq_lt {a b : String} : cmpText a b = .lt ↔ a < b := by
  rw [cmpText]
  split_ifs with hab hba <;> simp [hab]

theorem cmpPre_eq_lt {a b : PreIdentifier} : cmpPre a b = .lt ↔ a.Below b := by
  constructor
  · intro h
    cases a with
    | number m =>
      cases b with
      | number n => exact .numbers (Nat.compare_eq_lt.mp h)
      | name t => exact .mixed m t
    | name s =>
      cases b with
      | number n => cases h
      | name t => exact .names (cmpText_eq_lt.mp h)
  · rintro (h | h | _)
    · exact Nat.compare_eq_lt.mpr h
    · exact cmpText_eq_lt.mpr h
    · rfl

/-- A list is below another by its first difference, or as its beginning. -/
theorem cmpList_eq_lt {α : Type} {cmp : α → α → Ordering} [LawfulEqCmp cmp] {below : α → α → Prop}
    (h : ∀ a b, cmp a b = .lt ↔ below a b) {as bs : List α} :
    cmpList cmp as bs = .lt ↔ List.Lex below as bs := by
  induction as generalizing bs with
  | nil => cases bs <;> simp [cmpList]
  | cons a as ih =>
    cases bs with
    | nil => simp [cmpList]
    | cons b bs =>
      rw [cmpList, Ordering.then_eq_lt, h, LawfulEqCmp.compare_eq_iff_eq, ih,
        List.cons_lex_cons_iff]

theorem cmpPreRelease_eq_lt {as bs : List PreIdentifier} :
    cmpPreRelease as bs = .lt ↔ PreBelow as bs := by
  cases as with
  | nil => cases bs <;> simp [cmpPreRelease, PreBelow]
  | cons a as =>
    cases bs with
    | nil => simp [cmpPreRelease, PreBelow]
    | cons b bs =>
      rw [cmpPreRelease, cmpList_eq_lt fun _ _ => cmpPre_eq_lt]
      · simp [PreBelow]
      all_goals simp

theorem cmpPrecedence_eq_lt : cmpPrecedence v w = .lt ↔ v.Precedes w := by
  simp only [cmpPrecedence, Ordering.then_eq_lt, Nat.compare_eq_lt, Nat.compare_eq_eq,
    cmpPreRelease_eq_lt, Precedes]

theorem cmpPrecedence_eq_eq : cmpPrecedence v w = .eq ↔ SamePrecedence v w := by
  simp only [cmpPrecedence, Ordering.then_eq_eq, LawfulEqCmp.compare_eq_iff_eq, SamePrecedence]

end Version

namespace Tag

open Version

variable {a b : String} {v w : Version}

/-! ## Comparing -/

/-- What is no version is below every version. -/
def cmpRead : Option Version → Option Version → Ordering
  | .none, .none => .eq
  | .none, some _ => .lt
  | some _, .none => .gt
  | some v, some w => v.cmp w

instance : OrientedCmp cmpRead where
  eq_swap {a b} := by
    cases a <;> cases b
    · rfl
    · rfl
    · rfl
    · exact (OrientedCmp.eq_swap : Version.cmp _ _ = _)

instance : TransCmp cmpRead where
  isLE_trans {a b c} hab hbc := by
    cases a <;> cases b <;> cases c <;> simp only [cmpRead] at *
    all_goals first | exact TransCmp.isLE_trans hab hbc | contradiction | rfl

/-- Tags compare by what they name and then by their text. -/
theorem cmp_eq_compareLex :
    cmp = compareLex (fun a b => cmpRead (ofTag? a) (ofTag? b)) cmpText := by
  funext a b
  rw [cmp, compareLex]
  cases ofTag? a <;> cases ofTag? b <;> rfl

instance : TransCmp cmp :=
  have : TransCmp fun a b => cmpRead (ofTag? a) (ofTag? b) := transCmp_on ofTag? cmpRead
  cmp_eq_compareLex ▸ inferInstance

instance : LawfulEqCmp cmp where
  compare_self := ReflCmp.compare_self
  eq_of_compare h := by
    rw [cmp_eq_compareLex, compareLex_eq_eq] at h
    exact LawfulEqCmp.eq_of_compare h.2

theorem eq_of_isLE (hab : (cmp a b).isLE) (hba : (cmp b a).isLE) : a = b :=
  LawfulEqCmp.eq_of_compare (OrientedCmp.isLE_antisymm hab hba)

theorem isLE_total (a b : String) : (cmp a b).isLE ∨ (cmp b a).isLE := by
  have hswap : cmp b a = (cmp a b).swap := OrientedCmp.eq_swap
  rw [hswap]
  cases cmp a b <;> decide

theorem cmp_of_unreadable (ha : ofTag? a = .none) (hb : ofTag? b = some w) : cmp a b = .lt := by
  rw [cmp, ha, hb]

/-- Versions that differ in more than their build metadata are in the order of precedence. -/
theorem cmp_of_differ (ha : ofTag? a = some v) (hb : ofTag? b = some w) (h : ¬ SamePrecedence v w) :
    cmp a b = cmpPrecedence v w := by
  rw [← cmpPrecedence_eq_eq] at h
  rw [cmp, ha, hb]
  dsimp only [Version.cmp]
  cases hcmp : cmpPrecedence v w with
  | lt => rfl
  | eq => exact absurd hcmp h
  | gt => rfl

/-! ## Sorting -/

theorem le_iff : le a b = true ↔ (cmp a b).isLE := by
  rw [le]
  cases cmp a b <;> decide

theorem sort_perm (tags : List String) : (sort tags).Perm tags :=
  List.mergeSort_perm tags le

theorem pairwise_sort (tags : List String) : (sort tags).Pairwise fun a b => (cmp a b).isLE := by
  have hsorted : (sort tags).Pairwise fun a b => le a b = true := by
    refine List.pairwise_mergeSort (fun a b c hab hbc => ?_) (fun a b => ?_) tags
    · rw [le_iff] at *
      exact TransCmp.isLE_trans hab hbc
    · rw [Bool.or_eq_true, le_iff, le_iff]
      exact isLE_total a b
  exact hsorted.imp le_iff.mp

/-- Only one order of tags is sorted. -/
theorem eq_of_sorted {tags order : List String} (hperm : order.Perm tags)
    (horder : order.Pairwise fun a b => (cmp a b).isLE)
    (htags : tags.Pairwise fun a b => (cmp a b).isLE) : order = tags :=
  hperm.eq_of_pairwise (fun _ _ _ _ => eq_of_isLE) horder htags

/-! ## The order -/

/-- A comparison that orders all texts as tags. -/
structure OrdersTags (cmp : String → String → Ordering) : Prop where
  swap : ∀ a b, cmp b a = (cmp a b).swap
  antisymm : ∀ a b, (cmp a b).isLE → (cmp b a).isLE → a = b
  trans : ∀ a b c, (cmp a b).isLE → (cmp b c).isLE → (cmp a c).isLE
  total : ∀ a b, (cmp a b).isLE ∨ (cmp b a).isLE
  eq_iff : ∀ a b, cmp a b = .eq ↔ a = b
  unreadableFirst : ∀ a b w, ofTag? a = .none → ofTag? b = some w → cmp a b = .lt
  precedence : ∀ a b v w, ofTag? a = some v → ofTag? b = some w → ¬ SamePrecedence v w →
    (cmp a b = .lt ↔ v.Precedes w)

/-- **Tags are totally ordered**, and sorting brings every list of tags into this order. -/
theorem ordersTags :
    OrdersTags cmp ∧ ∀ tags, (sort tags).Perm tags ∧
      (sort tags).Pairwise (fun a b => (cmp a b).isLE) ∧
      ∀ order, order.Perm tags → sort order = sort tags := by
  refine ⟨⟨?_, ?_, ?_, ?_, ?_, ?_, ?_⟩, fun tags => ⟨sort_perm tags, pairwise_sort tags, ?_⟩⟩
  · exact fun a b => OrientedCmp.eq_swap
  · exact fun a b => eq_of_isLE
  · exact fun a b c => TransCmp.isLE_trans
  · exact isLE_total
  · exact fun a b => LawfulEqCmp.compare_eq_iff_eq
  · exact fun a b w => cmp_of_unreadable
  · intro a b v w ha hb hdiffer
    rw [cmp_of_differ ha hb hdiffer, cmpPrecedence_eq_lt]
  · intro order hperm
    exact eq_of_sorted ((sort_perm order).trans (hperm.trans (sort_perm tags).symm))
      (pairwise_sort order) (pairwise_sort tags)

/-- Tags for one version are told apart by build metadata and then by their text. -/
example : ["x", "1.0.0-9", "1.0.0-10", "1.0.0", "v1", "1.0.0+b"].Pairwise (cmp · · = .lt) := by
  decide

end Tag

end Retrofit

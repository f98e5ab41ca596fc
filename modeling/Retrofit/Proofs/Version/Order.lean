import Mathlib.Order.Lattice
import Retrofit.Version.Basic

/-!
# Versions are linearly ordered

`Version.cmp` compares field by field, and each field has an order of its own. A comparison that is
put together from linear orders is one again, so every field gets its laws here and the
comparison of versions inherits them.

**Texts** compare by their characters.

**Pre-releases.** A list of identifiers compares by its first difference; the empty one, which
stands for a release, is above all others.

**Builds.** Two numerals of the same value and length are the same text (`digitsValue_injective`),
so build identifiers that compare equal are equal.

The instance `LinearOrder Version` carries the order; `cmp_ne_gt` and `cmp_eq_gt` say it in terms
of `cmp`.
-/

namespace Retrofit.Version

open Std (ReflCmp OrientedCmp TransCmp LawfulEqCmp LawfulEqOrd)

/-! ## Texts -/

theorem cmpText_eq_compare : cmpText = (compare : String → String → Ordering) := by
  funext a b
  show (if a < b then Ordering.lt else if b < a then .gt else .eq) =
    if a < b then .lt else if a = b then .eq else .gt
  by_cases hab : a < b
  · rw [if_pos hab, if_pos hab]
  · rw [if_neg hab, if_neg hab]
    by_cases heq : a = b
    · subst heq
      rw [if_neg hab, if_pos rfl]
    · rw [if_neg heq, if_pos]
      exact (Std.lt_trichotomy a b).resolve_left hab |>.resolve_left heq

instance : TransCmp cmpText := cmpText_eq_compare ▸ inferInstance

instance : LawfulEqCmp cmpText := cmpText_eq_compare ▸ inferInstance

/-! ## Pre-releases -/

instance : OrientedCmp cmpPre where
  eq_swap {a b} := by
    cases a <;> cases b <;> simp only [cmpPre]
    · exact OrientedCmp.eq_swap
    · rfl
    · rfl
    · exact OrientedCmp.eq_swap

instance : TransCmp cmpPre where
  isLE_trans {a b c} hab hbc := by
    cases a <;> cases b <;> cases c <;> simp only [cmpPre] at *
    all_goals first | exact TransCmp.isLE_trans hab hbc | contradiction | rfl

instance : LawfulEqCmp cmpPre where
  compare_self {a} := by cases a <;> exact ReflCmp.compare_self
  eq_of_compare {a b} h := by
    cases a <;> cases b <;> simp only [cmpPre, reduceCtorEq] at h
    · rw [LawfulEqCmp.eq_of_compare h]
    · rw [LawfulEqCmp.eq_of_compare h]

theorem cmpList_eq_compareLex {α : Type} (cmp : α → α → Ordering) :
    cmpList cmp = List.compareLex cmp := by
  funext as bs
  induction as generalizing bs with
  | nil => cases bs <;> rfl
  | cons a as ih =>
    cases bs with
    | nil => rfl
    | cons b bs => rw [cmpList, List.compareLex_cons_cons, ih]

/-- The release is told apart first, then the identifiers count. -/
theorem cmpPreRelease_eq_compareLex :
    cmpPreRelease = compareLex (compareOn List.isEmpty) (List.compareLex cmpPre) := by
  funext as bs
  rw [← cmpList_eq_compareLex]
  cases as <;> cases bs <;> rfl

instance : TransCmp cmpPreRelease := cmpPreRelease_eq_compareLex ▸ inferInstance

instance : LawfulEqCmp cmpPreRelease where
  compare_self := ReflCmp.compare_self
  eq_of_compare {as bs} h := by
    rw [cmpPreRelease_eq_compareLex, compareLex_eq_eq] at h
    exact LawfulEqCmp.eq_of_compare h.2

/-! ## Build metadata -/

theorem isDigit_bounds {c : Char} (h : c.isDigit) : 48 ≤ c.toNat ∧ c.toNat ≤ 57 := by
  simpa [Char.isDigit, UInt32.le_iff_toNat_le] using h

/-- Reading digits on is injective in what was read before and in the digits. -/
theorem foldl_digits_injective {as bs : List Char} (ha : as.all Char.isDigit)
    (hb : bs.all Char.isDigit) (hlen : as.length = bs.length) {m n : Nat}
    (h : as.foldl (fun n c => n * 10 + (c.toNat - '0'.toNat)) m =
      bs.foldl (fun n c => n * 10 + (c.toNat - '0'.toNat)) n) : m = n ∧ as = bs := by
  induction as generalizing bs m n with
  | nil =>
    cases bs with
    | nil => exact ⟨h, rfl⟩
    | cons b bs => simp at hlen
  | cons a as ih =>
    cases bs with
    | nil => simp at hlen
    | cons b bs =>
      simp only [List.all_cons, Bool.and_eq_true, List.length_cons, Nat.add_right_cancel_iff,
        List.foldl_cons] at ha hb hlen h
      obtain ⟨hmn, rfl⟩ := ih ha.2 hb.2 hlen h
      have hA := isDigit_bounds ha.1
      have hB := isDigit_bounds hb.1
      have h0 : '0'.toNat = 48 := rfl
      have hab : a.toNat = b.toNat := by omega
      exact ⟨by omega, by rw [Char.toNat_inj.mp hab]⟩

/-- Numerals of one length are told apart by their values. -/
theorem digitsValue_injective {as bs : List Char} (ha : as.all Char.isDigit)
    (hb : bs.all Char.isDigit) (hlen : as.length = bs.length)
    (h : digitsValue as = digitsValue bs) : as = bs :=
  (foldl_digits_injective ha hb hlen h).2

/-- How numerals compare: by value, then by length. -/
def cmpNumeral : String → String → Ordering :=
  compareLex (compareOn fun a => digitsValue a.toList) (compareOn fun a => a.toList.length)

instance : TransCmp cmpNumeral := inferInstanceAs (TransCmp (compareLex _ _))

theorem cmpBuild_numeral {a b : String} (ha : isNumeral a = true) (hb : isNumeral b = true) :
    cmpBuild a b = cmpNumeral a b := by
  simp only [cmpBuild, ha, hb]
  rfl

theorem cmpBuild_name {a b : String} (ha : isNumeral a = false) (hb : isNumeral b = false) :
    cmpBuild a b = cmpText a b := by
  simp only [cmpBuild, ha, hb]

theorem cmpBuild_numeral_name {a b : String} (ha : isNumeral a = true) (hb : isNumeral b = false) :
    cmpBuild a b = .lt := by
  simp only [cmpBuild, ha, hb]

theorem cmpBuild_name_numeral {a b : String} (ha : isNumeral a = false) (hb : isNumeral b = true) :
    cmpBuild a b = .gt := by
  simp only [cmpBuild, ha, hb]

instance : OrientedCmp cmpBuild where
  eq_swap {a b} := by
    cases ha : isNumeral a <;> cases hb : isNumeral b
    · rw [cmpBuild_name ha hb, cmpBuild_name hb ha]
      exact OrientedCmp.eq_swap
    · rw [cmpBuild_name_numeral ha hb, cmpBuild_numeral_name hb ha]
      rfl
    · rw [cmpBuild_numeral_name ha hb, cmpBuild_name_numeral hb ha]
      rfl
    · rw [cmpBuild_numeral ha hb, cmpBuild_numeral hb ha]
      exact OrientedCmp.eq_swap


instance : TransCmp cmpBuild where
  isLE_trans {a b c} hab hbc := by
    cases ha : isNumeral a <;> cases hb : isNumeral b <;> cases hc : isNumeral c <;>
      simp only [cmpBuild_name, cmpBuild_numeral, cmpBuild_numeral_name, cmpBuild_name_numeral,
        ha, hb, hc] at *
    all_goals first | exact TransCmp.isLE_trans hab hbc | contradiction | rfl

instance : LawfulEqCmp cmpBuild where
  compare_self := ReflCmp.compare_self
  eq_of_compare {a b} h := by
    cases ha : isNumeral a <;> cases hb : isNumeral b
    · rw [cmpBuild_name ha hb] at h
      exact LawfulEqCmp.eq_of_compare h
    · rw [cmpBuild_name_numeral ha hb] at h
      contradiction
    · rw [cmpBuild_numeral_name ha hb] at h
      contradiction
    · rw [cmpBuild_numeral ha hb, cmpNumeral, compareLex_eq_eq] at h
      have hvalue := LawfulEqOrd.eq_of_compare h.1
      have hlen := LawfulEqOrd.eq_of_compare h.2
      exact String.toList_inj.mp (digitsValue_injective ha hb hlen hvalue)

/-! ## Versions -/

/-- A comparison of parts compares the wholes. -/
theorem transCmp_on {α β : Type} (part : α → β) (cmp : β → β → Ordering) [TransCmp cmp] :
    TransCmp fun a b => cmp (part a) (part b) where
  eq_swap := OrientedCmp.eq_swap
  isLE_trans := TransCmp.isLE_trans

instance : TransCmp cmpPrecedence :=
  have : TransCmp fun v w : Version => cmpPreRelease v.pre w.pre := transCmp_on pre cmpPreRelease
  inferInstanceAs <| TransCmp <| compareLex (compareOn major) <| compareLex (compareOn minor) <|
    compareLex (compareOn patch) fun v w => cmpPreRelease v.pre w.pre

instance : TransCmp cmp :=
  have : TransCmp (cmpList cmpBuild) := cmpList_eq_compareLex cmpBuild ▸ inferInstance
  have : TransCmp fun v w : Version => cmpList cmpBuild v.build w.build :=
    transCmp_on build (cmpList cmpBuild)
  inferInstanceAs <| TransCmp <|
    compareLex cmpPrecedence fun v w => cmpList cmpBuild v.build w.build

/-- Versions that compare equal are equal: nothing in a version is ignored. -/
instance : LawfulEqCmp cmp where
  compare_self := ReflCmp.compare_self
  eq_of_compare {v w} h := by
    simp only [cmp, cmpPrecedence, Ordering.then_eq_eq, cmpList_eq_compareLex] at h
    obtain ⟨⟨hmajor, hminor, hpatch, hpre⟩, hbuild⟩ := h
    cases v
    cases w
    rw [mk.injEq]
    exact ⟨LawfulEqOrd.eq_of_compare hmajor, LawfulEqOrd.eq_of_compare hminor,
      LawfulEqOrd.eq_of_compare hpatch, LawfulEqCmp.eq_of_compare hpre,
      LawfulEqCmp.eq_of_compare hbuild⟩

/-- Versions in the order of `cmp`. -/
instance : LinearOrder Version where
  le v w := (v.cmp w).isLE
  le_refl _ := ReflCmp.isLE_rfl
  le_trans _ _ _ := TransCmp.isLE_trans
  le_antisymm _ _ hvw hwv := LawfulEqCmp.eq_of_compare (OrientedCmp.isLE_antisymm hvw hwv)
  le_total v w := by
    cases h : v.cmp w with
    | lt => exact .inl rfl
    | eq => exact .inl rfl
    | gt =>
      have hswap : w.cmp v = (v.cmp w).swap := OrientedCmp.eq_swap
      exact .inr (by rw [hswap, h]; rfl)
  toDecidableLE v w := inferInstanceAs (Decidable ((v.cmp w).isLE = true))

theorem cmp_ne_gt {v w : Version} : v.cmp w ≠ .gt ↔ v ≤ w := by
  show v.cmp w ≠ .gt ↔ (v.cmp w).isLE = true
  cases v.cmp w <;> decide

theorem cmp_eq_gt {v w : Version} : v.cmp w = .gt ↔ w < v := by
  rw [← not_le, ← cmp_ne_gt, ne_eq, Decidable.not_not]

end Retrofit.Version

import Mathlib.Order.Basic
import Retrofit.Proofs.Version.Order
import Retrofit.Version.Tag

/-!
# The selected tag

`Tag.select` goes through the available tags once and keeps a choice, which starts at version zero
under the tag that stands for no version. A tag takes the place of the choice if its version applies
and is strictly above that of the choice.

**One step** (`Choice.prefer`). What is known of the choice among the tags seen so far holds with
one more tag.

**The whole list** (`Choice.foldl`). So the last choice is at least every version that applies, and
it is either a tag of the list or still the one at the start.

**What starts at zero stays there.** A list without a tag above zero that applies leaves the choice
at the start, whatever else it holds (`select_eq_none`). With such a tag the best one is selected
(`select_best`).
-/

namespace Retrofit.Tag

open Version

/-- A tag applies to a version if it names one that is not above it. -/
def Applies (target : Version) (tag : String) : Prop :=
  ∃ v, ofTag? tag = some v ∧ v ≤ target

/-- A tag serves a requested one if both name versions and it applies. -/
def Serves (requested tag : String) : Prop :=
  ∃ target, ofTag? requested = some target ∧ Applies target tag

/-- Some available tag applies and names a version above zero. -/
def SomeAboveZero (target : Version) (available : List String) : Prop :=
  ∃ tag ∈ available, ∃ v, ofTag? tag = some v ∧ zero < v ∧ v ≤ target

/-- The tag is one of the available ones, and names the greatest version of those that apply. -/
structure Best (target : Version) (available : List String) (tag : String) : Prop where
  mem : tag ∈ available
  applies : Applies target tag
  greatest : ∀ other ∈ available, ∀ v w, ofTag? tag = some v → ofTag? other = some w →
    w ≤ target → w ≤ v

theorem ofTag?_none : ofTag? none = some zero := by decide

/-! ## One step -/

theorem prefer_of_unreadable {target : Version} {choice : Version × String} {tag : String}
    (h : ofTag? tag = .none) : prefer target choice tag = choice := by
  rw [prefer, h]

theorem prefer_of_some {target v : Version} {choice : Version × String} {tag : String}
    (h : ofTag? tag = some v) :
    prefer target choice tag = if v ≤ target ∧ choice.1 < v then (v, tag) else choice := by
  simp only [prefer, h, cmp_ne_gt, cmp_eq_gt]

/-- What is known of a choice among the tags `seen` that began at `start`. -/
structure Choice (target : Version) (start : Version × String) (seen : List String)
    (choice : Version × String) : Prop where
  origin : choice = start ∨
    choice.2 ∈ seen ∧ ofTag? choice.2 = some choice.1 ∧ choice.1 ≤ target ∧ start.1 < choice.1
  greatest : ∀ tag ∈ seen, ∀ v, ofTag? tag = some v → v ≤ target → v ≤ choice.1

namespace Choice

variable {target : Version} {start choice : Version × String} {seen : List String}

theorem init (target : Version) (start : Version × String) : Choice target start [] start :=
  ⟨.inl rfl, fun _ h => nomatch h⟩

theorem start_le (h : Choice target start seen choice) : start.1 ≤ choice.1 := by
  rcases h.origin with rfl | ⟨_, _, _, hlt⟩
  · exact le_rfl
  · exact hlt.le

theorem prefer (h : Choice target start seen choice) (tag : String) :
    Choice target start (seen ++ [tag]) (Tag.prefer target choice tag) := by
  have hkeep : (∀ v, ofTag? tag = some v → v ≤ target → v ≤ choice.1) →
      Choice target start (seen ++ [tag]) choice := by
    intro htag
    refine ⟨h.origin.imp_right fun ⟨hmem, hrest⟩ => ⟨List.mem_append_left _ hmem, hrest⟩, ?_⟩
    intro other hother
    rcases List.mem_append.mp hother with hseen | hlast
    · exact h.greatest other hseen
    · rw [List.mem_singleton.mp hlast]
      exact htag
  cases htag : ofTag? tag with
  | none =>
    rw [prefer_of_unreadable htag]
    exact hkeep fun v hv => by rw [htag] at hv; contradiction
  | some v =>
    rw [prefer_of_some htag]
    split_ifs with hbetter
    · refine ⟨.inr ⟨by simp, htag, hbetter.1, h.start_le.trans_lt hbetter.2⟩, ?_⟩
      intro other hother w hw hle
      rcases List.mem_append.mp hother with hseen | hlast
      · exact (h.greatest other hseen w hw hle).trans hbetter.2.le
      · rw [List.mem_singleton.mp hlast, htag] at hw
        exact (Option.some.inj hw).ge
    · refine hkeep fun w hw hle => ?_
      rw [htag, Option.some.injEq] at hw
      subst hw
      exact not_lt.mp fun hlt => hbetter ⟨hle, hlt⟩

/-! ## The whole list -/

theorem foldl (h : Choice target start seen choice) (available : List String) :
    Choice target start (seen ++ available) (available.foldl (Tag.prefer target) choice) := by
  induction available generalizing seen choice with
  | nil => simpa using h
  | cons tag rest ih => simpa using ih (h.prefer tag)

end Choice

/-! ## Selection -/

variable {requested : String} {target : Version} {available : List String}

theorem select_of_unreadable (h : ofTag? requested = .none) :
    select requested available = none := by
  rw [select, h]

theorem select_eq (h : ofTag? requested = some target) :
    select requested available = (available.foldl (Tag.prefer target) (zero, none)).2 := by
  rw [select, h]

/-- With a tag above zero that applies, the best tag is selected. -/
theorem select_best (h : ofTag? requested = some target) (habove : SomeAboveZero target available) :
    Best target available (select requested available) := by
  rw [select_eq h]
  have hchoice := (Choice.init target (zero, none)).foldl available
  rw [List.nil_append] at hchoice
  obtain ⟨tag, hmem, v, hv, hpos, hle⟩ := habove
  have hgreat := hchoice.greatest tag hmem v hv hle
  rcases hchoice.origin with hstart | ⟨hin, hof, happlies, _⟩
  · rw [hstart] at hgreat
    exact absurd (hpos.trans_le hgreat) (lt_irrefl _)
  · refine ⟨hin, ⟨_, hof, happlies⟩, ?_⟩
    intro other hother u w hu hw hwle
    rw [hof, Option.some.injEq] at hu
    exact hu ▸ hchoice.greatest other hother w hw hwle

/-- Without a tag above zero that applies, the tag that stands for no version is selected. -/
theorem select_eq_none (h : ofTag? requested = some target)
    (hzero : ¬ SomeAboveZero target available) : select requested available = none := by
  rw [select_eq h]
  have hchoice := (Choice.init target (zero, none)).foldl available
  rw [List.nil_append] at hchoice
  rcases hchoice.origin with hstart | ⟨hin, hof, happlies, hpos⟩
  · rw [hstart]
  · exact absurd ⟨_, hin, _, hof, hpos, happlies⟩ hzero

end Retrofit.Tag

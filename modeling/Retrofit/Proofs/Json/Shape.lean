import Mathlib.Data.List.Forall2
import Retrofit.Json.Shape
import Retrofit.Proofs.Dictionary
import Retrofit.Proofs.Except

/-!
# What is read by a shape

What stands in a document that was read was read by a shape as well: the document itself
(`exists_of_ofText`), the values of an object (`exists_of_pairs`) and those of a dictionary
(`exists_of_dictionary`). So what holds of everything that the shape of the values reads holds of
all the values.

What a shape reads is said by an equivalence for each way to build shapes (`text_eq_ok_iff`,
`list_eq_ok_iff`, `pairs_eq_ok_iff`): lists and objects are read part by part.

A record is filled field by field. What holds of the record with the defaults and is kept by every
field holds of the record that was read (`of_record`).
-/

namespace Retrofit.Shape

variable {α : Type} {shape : Shape α} {value : String → Shape α} {o : Origin} {d : Draft}
  {k : String} {v : α}

theorem mismatch_ne_ok {expected : String} : (mismatch expected d : Except Flaw α) ≠ .ok v := by
  intro h
  obtain ⟨found, -, h⟩ := bind_eq_ok.mp h
  cases h

theorem atEnd_eq_ok_iff {fault : Option Fault} : atEnd fault = .ok () ↔ fault = none := by
  cases fault <;> simp [atEnd]

theorem ofText_eq_ok_iff {source : String} : ofText shape source = .ok v ↔
    shape .document (Draft.read source).1 = .ok v ∧ (Draft.read source).2 = none := by
  constructor
  · intro h
    obtain ⟨read, hread, hbehind⟩ := bind_eq_ok.mp h
    obtain ⟨⟨⟩, hend, hv⟩ := bind_eq_ok.mp hbehind
    cases hv
    exact ⟨hread, atEnd_eq_ok_iff.mp hend⟩
  · rintro ⟨hread, hfault⟩
    simp [ofText, hread, hfault, ok_bind, atEnd, pure_eq_ok]

theorem exists_of_ofText {source : String} (h : ofText shape source = .ok v) :
    ∃ o d, shape o d = .ok v :=
  ⟨_, _, (ofText_eq_ok_iff.mp h).1⟩

theorem exists_of_members {found : List (Option String × Draft)} {read : List (String × α)}
    (h : members value o found = .ok read) (hmem : (k, v) ∈ read) : ∃ d, value k o d = .ok v := by
  induction found generalizing read with
  | nil =>
    cases h
    cases hmem
  | cons member rest ih =>
    obtain ⟨name, d⟩ := member
    obtain ⟨first, -, h⟩ := bind_eq_ok.mp h
    obtain ⟨firstValue, hvalue, h⟩ := bind_eq_ok.mp h
    obtain ⟨others, hrest, h⟩ := bind_eq_ok.mp h
    cases h
    rcases List.mem_cons.mp hmem with heq | hmem
    · cases heq
      exact ⟨d, hvalue⟩
    · exact ih hrest hmem

theorem exists_of_pairs {expected : String} {read : List (String × α)}
    (h : pairs expected value o d = .ok read) (hmem : (k, v) ∈ read) :
    ∃ o d, value k o d = .ok v := by
  unfold pairs at h
  split at h
  · obtain ⟨inner, -, h⟩ := bind_eq_ok.mp h
    obtain ⟨all, hall, h⟩ := bind_eq_ok.mp h
    obtain ⟨-, -, h⟩ := bind_eq_ok.mp h
    cases h
    exact ⟨inner, exists_of_members hall hmem⟩
  · exact absurd h mismatch_ne_ok

theorem exists_of_dictionary {read : Dictionary α} (h : dictionary shape o d = .ok read)
    (hmem : (k, v) ∈ read) : ∃ o d, shape o d = .ok v := by
  obtain ⟨all, hall, rfl⟩ := map_eq_ok.mp h
  exact exists_of_pairs hall (Dictionary.mem_of_mem_ofList hmem)

theorem pairwise_keys_of_dictionary {read : Dictionary α} (h : dictionary shape o d = .ok read) :
    (Dictionary.keys read).Pairwise (· < ·) := by
  obtain ⟨all, -, rfl⟩ := map_eq_ok.mp h
  exact Dictionary.pairwise_keys_ofList all

/-! ## What is read, part by part -/

theorem text_eq_ok_iff {text : String} : Shape.text o d = .ok text ↔ d = .string (some text) := by
  constructor
  · intro h
    unfold Shape.text at h
    split at h
    · rw [Except.ok.inj h]
    · exact absurd h mismatch_ne_ok
  · rintro rfl
    exact rfl

theorem key_eq_ok_iff {name : Option String} : key name = .ok k ↔ name = some k := by
  cases name <;> simp [key]

theorem mapM_eq_ok_iff {β ε : Type} {f : β → Except ε α} {items : List β} {read : List α} :
    items.mapM f = .ok read ↔ List.Forall₂ (fun item v => f item = .ok v) items read := by
  induction items generalizing read with
  | nil => simp [pure_eq_ok, eq_comm]
  | cons item rest ih =>
    rw [mapM_cons_eq_ok, List.forall₂_cons_left_iff]
    simp only [ih]

/-- A list is an array, and its items are read in order. -/
theorem list_eq_ok_iff {read : List α} :
    list shape o d = .ok read ↔ ∃ items inner, d = .array items none ∧ o.enter = .ok inner ∧
      List.Forall₂ (fun item v => shape inner item = .ok v) items read := by
  constructor
  · intro h
    unfold list at h
    split at h
    · rename_i items fault
      obtain ⟨inner, hinner, h⟩ := bind_eq_ok.mp h
      obtain ⟨all, hall, h⟩ := bind_eq_ok.mp h
      obtain ⟨⟨⟩, hend, h⟩ := bind_eq_ok.mp h
      cases h
      rw [atEnd_eq_ok_iff.mp hend]
      exact ⟨items, inner, rfl, hinner, mapM_eq_ok_iff.mp hall⟩
    · exact absurd h mismatch_ne_ok
  · rintro ⟨items, inner, rfl, hinner, hitems⟩
    simp [list, hinner, mapM_eq_ok_iff.mpr hitems, ok_bind, atEnd, pure_eq_ok]

/-- The member is read as the pair, its value by the shape of its key. -/
def ReadsAs (value : String → Shape α) (o : Origin) (member : Option String × Draft)
    (pair : String × α) :
    Prop :=
  member.1 = some pair.1 ∧ value pair.1 o member.2 = .ok pair.2

theorem members_eq_ok_iff {found : List (Option String × Draft)} {read : List (String × α)} :
    members value o found = .ok read ↔ List.Forall₂ (ReadsAs value o) found read := by
  induction found generalizing read with
  | nil => simp [members, eq_comm]
  | cons member rest ih =>
    obtain ⟨name, d⟩ := member
    rw [List.forall₂_cons_left_iff]
    constructor
    · intro h
      obtain ⟨k, hk, h⟩ := bind_eq_ok.mp h
      obtain ⟨v, hv, h⟩ := bind_eq_ok.mp h
      obtain ⟨others, hothers, h⟩ := bind_eq_ok.mp h
      cases h
      exact ⟨(k, v), others, ⟨key_eq_ok_iff.mp hk, hv⟩, ih.mp hothers, rfl⟩
    · rintro ⟨⟨k, v⟩, others, ⟨rfl, hv⟩, hothers, rfl⟩
      simp [members, key, hv, ih.mpr hothers, ok_bind, pure_eq_ok]

/-- An object with any keys, and its members are read in order. -/
theorem pairs_eq_ok_iff {expected : String} {read : List (String × α)} :
    pairs expected value o d = .ok read ↔
      ∃ found inner, d = .object found none ∧ o.enter = .ok inner ∧
      List.Forall₂ (ReadsAs value inner) found read := by
  constructor
  · intro h
    unfold pairs at h
    split at h
    · rename_i found fault
      obtain ⟨inner, hinner, h⟩ := bind_eq_ok.mp h
      obtain ⟨all, hall, h⟩ := bind_eq_ok.mp h
      obtain ⟨⟨⟩, hend, h⟩ := bind_eq_ok.mp h
      cases h
      rw [atEnd_eq_ok_iff.mp hend]
      exact ⟨found, inner, rfl, hinner, members_eq_ok_iff.mp hall⟩
    · exact absurd h mismatch_ne_ok
  · rintro ⟨found, inner, rfl, hinner, hfound⟩
    simp [pairs, hinner, members_eq_ok_iff.mpr hfound, ok_bind, atEnd, pure_eq_ok]

/-! ## Records -/

variable {P : α → Prop} {fieldList : List (Field α)}

/-- What a field makes of a record with the property has it as well. -/
def Field.Keeps (P : α → Prop) (field : Field α) : Prop :=
  ∀ o d r r', P r → field.read o d r = .ok r' → P r'

/-- A field keeps a property of the record if every value that can be read for it does. -/
theorem Field.given_keeps {β : Type} {name : String} {shape : Shape β} {set : β → α → α}
    (h : ∀ value o d, shape o d = .ok value → ∀ r, P r → P (set value r)) :
    (Field.given name shape set).Keeps P := by
  intro o d r r' hr hread
  obtain ⟨value, hvalue, rfl⟩ := map_eq_ok.mp hread
  exact h value o d hvalue r hr

theorem of_fieldsByName
    (hfields : ∀ field ∈ fieldList, field.Keeps P)
    {members : List (Option String × Draft)} {found names : List String} {r : α} (hr : P r)
    (h : fieldsByName fieldList o members found r = .ok (names, v)) : P v := by
  induction members generalizing found r with
  | nil =>
    cases h
    exact hr
  | cons member rest ih =>
    obtain ⟨k, d⟩ := member
    obtain ⟨k, -, h⟩ := bind_eq_ok.mp h
    cases hfield : fieldList.find? (·.name == k) with
    | none =>
      simp only [hfield] at h
      obtain ⟨-, -, h⟩ := bind_eq_ok.mp h
      exact ih hr h
    | some field =>
      simp only [hfield] at h
      split_ifs at h
      obtain ⟨next, hnext, h⟩ := bind_eq_ok.mp h
      exact ih (hfields field (List.mem_of_find?_eq_some hfield) o d r next hr hnext) h

theorem of_fieldsByPlace {expected : String}
    (hfields : ∀ field ∈ fieldList, field.Keeps P)
    {index : Nat} {items left : List Draft} {fault : Option Fault} {r : α} (hr : P r)
    (h : fieldsByPlace expected o fieldList index items fault r = .ok (left, v)) : P v := by
  induction fieldList generalizing index items r with
  | nil =>
    cases h
    exact hr
  | cons field rest ih =>
    obtain ⟨hfirst, hrest⟩ := List.forall_mem_cons.mp hfields
    cases items with
    | nil =>
      obtain ⟨-, -, h⟩ := bind_eq_ok.mp h
      split_ifs at h
      exact ih hrest hr h
    | cons d items =>
      obtain ⟨next, hnext, h⟩ := bind_eq_ok.mp h
      exact ih hrest (hfirst o d r next hr hnext) h

/-- What the defaults have and every field keeps is had by every record that was read. -/
theorem of_record {name : String} {initial : α}
    (hfields : ∀ field ∈ fieldList, field.Keeps P)
    (hinitial : P initial) (h : record name fieldList initial o d = .ok v) : P v := by
  unfold record fields at h
  split at h
  · obtain ⟨inner, -, h⟩ := bind_eq_ok.mp h
    obtain ⟨⟨names, read⟩, hread, h⟩ := bind_eq_ok.mp h
    obtain ⟨-, -, h⟩ := bind_eq_ok.mp h
    obtain ⟨-, -, h⟩ := bind_eq_ok.mp h
    cases h
    exact of_fieldsByName hfields hinitial hread
  · obtain ⟨inner, -, h⟩ := bind_eq_ok.mp h
    obtain ⟨⟨left, read⟩, hread, h⟩ := bind_eq_ok.mp h
    dsimp only at h
    split_ifs at h
    · obtain ⟨-, -, h⟩ := bind_eq_ok.mp h
      cases h
      exact of_fieldsByPlace hfields hinitial hread
    · cases h
  · exact absurd h mismatch_ne_ok

end Retrofit.Shape

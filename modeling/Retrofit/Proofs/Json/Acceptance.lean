import Retrofit.Proofs.Json.Document

/-!
# Which documents have a shape

A shape accepts a property of drafts (`Accepts`) if it reads, of the drafts that fit, exactly those
with the property. Each way to build shapes has a way to build the properties: a list is accepted if
its items are (`accepts_list`), an object if its values are (`accepts_pairs`).

What an object or a list accepts says nothing of where the draft comes from: what fits an origin has
parts that fit wherever the origin is entered.
-/

namespace Retrofit

namespace Draft

/-- The members of an object. -/
def members : Draft → List (Option String × Draft)
  | .object members _ => members
  | _ => []

/-- The items of an array. -/
def items : Draft → List Draft
  | .array items _ => items
  | _ => []

/-- A text. -/
def IsText (d : Draft) : Prop :=
  ∃ text, d = .string (some text)

/-- A whole number from 0 up. -/
def IsIndex (d : Draft) : Prop :=
  ∃ n : Nat, d = .number (some (.whole n))

/-- An array of items with the property. -/
def IsListOf (P : Draft → Prop) (d : Draft) : Prop :=
  ∃ items fault, d = .array items fault ∧ ∀ item ∈ items, P item

/-- An object of values with the property that their keys ask for. -/
def IsObjectOf (P : String → Draft → Prop) (d : Draft) : Prop :=
  ∃ members fault, d = .object members fault ∧
    ∀ k value, (k, value) ∈ members → ∃ name, k = some name ∧ P name value

variable {P Q : Draft → Prop} {R S : String → Draft → Prop} {d : Draft}

theorem IsListOf.of_mem (h : d.IsListOf P) {item : Draft} (hmem : item ∈ d.items) : P item := by
  obtain ⟨items, fault, rfl, hitems⟩ := h
  exact hitems item hmem

theorem IsListOf.mono (h : d.IsListOf P) (hsub : ∀ d, P d → Q d) : d.IsListOf Q := by
  obtain ⟨items, fault, rfl, hitems⟩ := h
  exact ⟨items, fault, rfl, fun item hitem => hsub item (hitems item hitem)⟩

theorem IsObjectOf.of_mem (h : d.IsObjectOf R) {member : Option String × Draft}
    (hmem : member ∈ d.members) :
    ∃ name, member.1 = some name ∧ R name member.2 := by
  obtain ⟨members, fault, rfl, hmembers⟩ := h
  exact hmembers member.1 member.2 hmem

theorem IsObjectOf.mono (h : d.IsObjectOf R) (hsub : ∀ k d, R k d → S k d) : d.IsObjectOf S := by
  obtain ⟨members, fault, rfl, hmembers⟩ := h
  refine ⟨members, fault, rfl, fun k value hmem => ?_⟩
  obtain ⟨name, hname, hvalue⟩ := hmembers k value hmem
  exact ⟨name, hname, hsub name value hvalue⟩

end Draft

namespace Shape

open Draft (IsText IsIndex IsListOf IsObjectOf)

variable {α β : Type} {shape : Shape α} {value : String → Shape α} {P : Draft → Prop}
  {Q : String → Draft → Prop} {o : Origin} {d : Draft}

/-- Of the drafts that fit, the shape reads those with the property. -/
def Accepts (shape : Shape α) (P : Draft → Prop) : Prop :=
  ∀ ⦃o : Origin⦄ ⦃d : Draft⦄, d.Fits o → ((∃ v, shape o d = .ok v) ↔ P d)

theorem Accepts.map (h : shape.Accepts P) (f : α → β) :
    Accepts (fun o d => (shape o d).map f) P := by
  intro o d hfits
  rw [← h hfits]
  simp [map_eq_ok]

theorem accepts_text : text.Accepts IsText :=
  fun _ _ _ => exists_congr fun _ => text_eq_ok_iff

theorem accepts_index : index.Accepts IsIndex := by
  intro o d _
  constructor
  · rintro ⟨n, h⟩
    unfold index at h
    split at h
    · exact ⟨_, rfl⟩
    · cases h
    · exact absurd h mismatch_ne_ok
  · rintro ⟨n, rfl⟩
    exact ⟨n, rfl⟩

theorem accepts_json : Accepts json Draft.IsLegible :=
  fun _ _ => exists_json_iff

theorem exists_forall₂_iff {R : α → β → Prop} {as : List α} :
    (∃ bs, List.Forall₂ R as bs) ↔ ∀ a ∈ as, ∃ b, R a b := by
  induction as with
  | nil => simp
  | cons a rest ih =>
    rw [List.forall_mem_cons, ← ih]
    constructor
    · rintro ⟨bs, h⟩
      obtain ⟨b, others, hab, hrest, -⟩ := List.forall₂_cons_left_iff.mp h
      exact ⟨⟨b, hab⟩, others, hrest⟩
    · rintro ⟨⟨b, hab⟩, others, hrest⟩
      exact ⟨b :: others, .cons hab hrest⟩

theorem accepts_list (h : shape.Accepts P) : (list shape).Accepts (IsListOf P) := by
  intro o d hfits
  constructor
  · rintro ⟨read, hread⟩
    obtain ⟨items, inner, rfl, henter, hitems⟩ := list_eq_ok_iff.mp hread
    obtain ⟨-, inner', henter', hfits⟩ := hfits.array
    obtain rfl : inner = inner' := Except.ok.inj (henter.symm.trans henter')
    refine ⟨items, none, rfl, fun item hitem => ?_⟩
    exact (h (hfits item hitem)).mp (exists_forall₂_iff.mp ⟨read, hitems⟩ item hitem)
  · rintro ⟨items, fault, rfl, hitems⟩
    obtain ⟨rfl, inner, henter, hfits⟩ := hfits.array
    obtain ⟨read, hread⟩ := exists_forall₂_iff.mpr fun item hitem =>
      (h (hfits item hitem)).mpr (hitems item hitem)
    exact ⟨read, list_eq_ok_iff.mpr ⟨items, inner, rfl, henter, hread⟩⟩

theorem accepts_pairs (expected : String) (h : ∀ k, (value k).Accepts (Q k)) :
    (pairs expected value).Accepts (IsObjectOf Q) := by
  intro o d hfits
  constructor
  · rintro ⟨read, hread⟩
    obtain ⟨members, inner, rfl, henter, hmembers⟩ := pairs_eq_ok_iff.mp hread
    obtain ⟨-, inner', henter', hfits⟩ := hfits.object
    obtain rfl : inner = inner' := Except.ok.inj (henter.symm.trans henter')
    refine ⟨members, none, rfl, fun k d hmem => ?_⟩
    obtain ⟨⟨name, v⟩, rfl, hv⟩ := exists_forall₂_iff.mp ⟨read, hmembers⟩ (k, d) hmem
    exact ⟨name, rfl, (h name (hfits _ d hmem)).mp ⟨v, hv⟩⟩
  · rintro ⟨members, fault, rfl, hmembers⟩
    obtain ⟨rfl, inner, henter, hfits⟩ := hfits.object
    obtain ⟨read, hread⟩ : ∃ read, List.Forall₂ (ReadsAs value inner) members read := by
      refine exists_forall₂_iff.mpr fun ⟨k, d⟩ hmem => ?_
      obtain ⟨name, rfl, hd⟩ := hmembers k d hmem
      obtain ⟨v, hv⟩ := (h name (hfits _ d hmem)).mpr hd
      exact ⟨(name, v), rfl, hv⟩
    exact ⟨read, pairs_eq_ok_iff.mpr ⟨members, inner, rfl, henter, hread⟩⟩

theorem accepts_dictionary (h : shape.Accepts P) :
    (dictionary shape).Accepts (IsObjectOf fun _ => P) :=
  Accepts.map (accepts_pairs "a map" fun _ => h) Dictionary.ofList

/-- A text holds what the shape accepts if its document has the property and nothing stands behind
it. -/
theorem Accepts.ofText_iff (h : shape.Accepts P) {source : String} {fault : Option Fault}
    (hread : Draft.read source = (d, fault)) (hfits : d.Fits .document) :
    (∃ v, ofText shape source = .ok v) ↔ P d ∧ fault = none := by
  rw [← h hfits]
  simp [ofText_eq_ok_iff, hread]

end Shape

end Retrofit

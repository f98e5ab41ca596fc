import Retrofit.Proofs.Json.Shape

/-!
# Documents within the limits of the reader

**Parts.** A draft is whole if no part of it has a fault and every number is in range, and legible
if no text in it has an unpaired surrogate. Its nesting counts the arrays and objects around the
innermost part.

**Fitting** (`Fits`). A draft fits an origin if it is whole and is not nested deeper than the origin
admits. So do its parts, where the origin is entered. What is whole can be ignored
(`skip_of_isWhole`), and what fits has a value if and only if it is legible (`exists_json_iff`).

**Values.** The value of a draft is what is read for it wherever any value may stand
(`eq_value_of_json`). What has a value can be ignored as well (`skip_of_json`).
-/

namespace Retrofit

namespace Draft

mutual

/-- The number of arrays and objects around the innermost part, itself included. -/
def nesting : Draft → Nat
  | .array items _ => itemsNesting items + 1
  | .object members _ => membersNesting members + 1
  | _ => 0

/-- The nesting of the deepest item. -/
def itemsNesting : List Draft → Nat
  | [] => 0
  | d :: rest => max d.nesting (itemsNesting rest)

/-- The nesting of the deepest member. -/
def membersNesting : List (Option String × Draft) → Nat
  | [] => 0
  | (_, d) :: rest => max d.nesting (membersNesting rest)

end

mutual

/-- The parts of a draft, itself among them. -/
def parts : Draft → List Draft
  | .array items fault => .array items fault :: itemParts items
  | .object members fault => .object members fault :: memberParts members
  | d => [d]

/-- The parts of items. -/
def itemParts : List Draft → List Draft
  | [] => []
  | d :: rest => d.parts ++ itemParts rest

/-- The parts of members. -/
def memberParts : List (Option String × Draft) → List Draft
  | [] => []
  | (_, d) :: rest => d.parts ++ memberParts rest

end

mutual

/-- The value of a draft; of members with one key the last one counts. What cannot be read counts as
null. -/
def value : Draft → Json
  | .bool b => .bool b
  | .number (some n) => .number n
  | .string (some s) => .string s
  | .array items _ => .array (itemValues items)
  | .object members _ => .object (Dictionary.ofList (memberValues members))
  | _ => .null

/-- The values of items. -/
def itemValues : List Draft → List Json
  | [] => []
  | d :: rest => d.value :: itemValues rest

/-- The values of members with their keys. -/
def memberValues : List (Option String × Draft) → List (String × Json)
  | [] => []
  | (k, d) :: rest => (k.getD "", d.value) :: memberValues rest

end

/-- The draft itself, its parts aside, has no fault and is no number out of range. -/
def isSound : Draft → Bool
  | .number n => n.isSome
  | .array _ fault => fault.isNone
  | .object _ fault => fault.isNone
  | .broken _ => false
  | _ => true

/-- The draft itself, its parts aside, has texts without unpaired surrogates. -/
def isReadable : Draft → Bool
  | .string s => s.isSome
  | .object members _ => members.all (·.1.isSome)
  | _ => true

/-- All parts are sound: the text is a JSON document, and its numbers are in range. -/
def IsWhole (d : Draft) : Prop :=
  ∀ part ∈ d.parts, part.isSound = true

/-- No text in the draft has an unpaired surrogate. -/
def IsLegible (d : Draft) : Prop :=
  ∀ part ∈ d.parts, part.isReadable = true

instance (d : Draft) : Decidable d.IsWhole :=
  inferInstanceAs (Decidable (∀ part ∈ d.parts, part.isSound = true))

instance (d : Draft) : Decidable d.IsLegible :=
  inferInstanceAs (Decidable (∀ part ∈ d.parts, part.isReadable = true))

variable {d : Draft} {items : List Draft} {members : List (Option String × Draft)}
  {fault : Option Fault} {k : Option String}

theorem self_mem_parts (d : Draft) : d ∈ d.parts := by
  cases d <;> simp [parts]

theorem itemParts_eq (items : List Draft) : itemParts items = items.flatMap parts := by
  induction items with
  | nil => rfl
  | cons d rest ih => rw [itemParts, ih, List.flatMap_cons]

theorem memberParts_eq (members : List (Option String × Draft)) :
    memberParts members = members.flatMap (·.2.parts) := by
  induction members with
  | nil => rfl
  | cons member rest ih => rw [memberParts, ih, List.flatMap_cons]

theorem nesting_le_of_mem_items (h : d ∈ items) : d.nesting ≤ itemsNesting items := by
  induction items with
  | nil => cases h
  | cons first rest ih =>
    rw [itemsNesting]
    rcases List.mem_cons.mp h with rfl | h
    · exact Nat.le_max_left ..
    · exact Nat.le_trans (ih h) (Nat.le_max_right ..)

theorem nesting_le_of_mem_members (h : (k, d) ∈ members) : d.nesting ≤ membersNesting members := by
  induction members with
  | nil => cases h
  | cons first rest ih =>
    rw [membersNesting]
    rcases List.mem_cons.mp h with rfl | h
    · exact Nat.le_max_left ..
    · exact Nat.le_trans (ih h) (Nat.le_max_right ..)

end Draft

/-! ## Fitting -/

namespace Origin

/-- Arrays and objects may be nested so deep. -/
def Admits : Origin → Nat → Prop
  | .text depth, nesting => nesting < depth
  | _, _ => True

theorem Admits.mono {o : Origin} {n m : Nat} (h : o.Admits n) (hle : m ≤ n) : o.Admits m := by
  cases o with
  | text depth => exact Nat.lt_of_le_of_lt hle h
  | value => trivial
  | buffer => trivial

theorem Admits.enter {o : Origin} {n : Nat} (h : o.Admits (n + 1)) :
    ∃ inner, o.enter = .ok inner ∧ inner.Admits n := by
  cases o with
  | text depth =>
    have hdepth : n + 1 < depth := h
    refine ⟨.text (depth - 1), ?_, ?_⟩
    · rw [Origin.enter, if_neg (by omega)]
    · exact show n < depth - 1 by omega
  | value => exact ⟨.value, rfl, trivial⟩
  | buffer => exact ⟨.buffer, rfl, trivial⟩

theorem Admits.max {o : Origin} {n m : Nat} (hn : o.Admits n) (hm : o.Admits m) :
    o.Admits (max n m) := by
  rcases Nat.le_total n m with hle | hle
  · rwa [Nat.max_eq_right hle]
  · rwa [Nat.max_eq_left hle]

theorem enter_text_eq_ok {inner : Origin} {depth : Nat}
    (h : (Origin.text depth).enter = .ok inner) :
    inner = .text (depth - 1) ∧ 1 < depth := by
  rw [Origin.enter] at h
  by_cases hdepth : depth ≤ 1
  · rw [if_pos hdepth] at h
    cases h
  · rw [if_neg hdepth] at h
    cases h
    exact ⟨rfl, Nat.lt_of_not_le hdepth⟩

theorem admits_zero_of_enter {o inner : Origin} (h : o.enter = .ok inner) : inner.Admits 0 := by
  cases o with
  | text depth =>
    obtain ⟨rfl, hdepth⟩ := enter_text_eq_ok h
    exact show 0 < depth - 1 by omega
  | value =>
    cases h
    trivial
  | buffer =>
    cases h
    trivial

theorem Admits.of_enter {o inner : Origin} {n : Nat} (h : o.enter = .ok inner)
    (hn : inner.Admits n) :
    o.Admits (n + 1) := by
  cases o with
  | text depth =>
    obtain ⟨rfl, hdepth⟩ := enter_text_eq_ok h
    have hlt : n < depth - 1 := hn
    exact show n + 1 < depth by omega
  | value => trivial
  | buffer => trivial

end Origin

namespace Draft

variable {d : Draft} {items : List Draft} {members : List (Option String × Draft)}
  {fault : Option Fault} {k : Option String} {o inner : Origin}

/-- A property of all parts is one of the array and of the parts of its items. -/
theorem forall_parts_array_iff {P : Draft → Prop} :
    (∀ part ∈ (Draft.array items fault).parts, P part) ↔
      P (.array items fault) ∧ ∀ d ∈ items, ∀ part ∈ d.parts, P part := by
  simp only [parts, itemParts_eq, List.forall_mem_cons, List.mem_flatMap]
  refine and_congr_right fun _ => ?_
  exact ⟨fun h d hd part hpart => h part ⟨d, hd, hpart⟩, fun h part ⟨d, hd, hpart⟩ =>
    h d hd part hpart⟩

/-- A property of all parts is one of the object and of the parts of its members. -/
theorem forall_parts_object_iff {P : Draft → Prop} :
    (∀ part ∈ (Draft.object members fault).parts, P part) ↔
      P (.object members fault) ∧ ∀ k d, (k, d) ∈ members → ∀ part ∈ d.parts, P part := by
  simp only [parts, memberParts_eq, List.forall_mem_cons, List.mem_flatMap]
  refine and_congr_right fun _ => ?_
  exact ⟨fun h k d hd part hpart => h part ⟨(k, d), hd, hpart⟩,
    fun h part ⟨member, hd, hpart⟩ => h member.1 member.2 hd part hpart⟩

theorem isWhole_array_iff :
    (Draft.array items fault).IsWhole ↔ fault = none ∧ ∀ d ∈ items, d.IsWhole := by
  rw [IsWhole, forall_parts_array_iff, isSound, Option.isNone_iff_eq_none]
  exact Iff.rfl

theorem isWhole_object_iff :
    (Draft.object members fault).IsWhole ↔ fault = none ∧ ∀ k d, (k, d) ∈ members → d.IsWhole := by
  rw [IsWhole, forall_parts_object_iff, isSound, Option.isNone_iff_eq_none]
  exact Iff.rfl

theorem isLegible_array_iff : (Draft.array items fault).IsLegible ↔ ∀ d ∈ items, d.IsLegible := by
  rw [IsLegible, forall_parts_array_iff]
  exact and_iff_right rfl

theorem isLegible_object_iff : (Draft.object members fault).IsLegible ↔
    ∀ k d, (k, d) ∈ members → (∃ name, k = some name) ∧ d.IsLegible := by
  rw [IsLegible, forall_parts_object_iff]
  simp only [isReadable, List.all_eq_true, Option.isSome_iff_exists]
  constructor
  · rintro ⟨hkeys, hvalues⟩ k d hd
    exact ⟨hkeys (k, d) hd, hvalues k d hd⟩
  · intro h
    exact ⟨fun member hmember => (h member.1 member.2 hmember).1, fun k d hd => (h k d hd).2⟩

/-- A draft that can be read wherever it stands, at least as some value if it is legible. -/
structure Fits (o : Origin) (d : Draft) : Prop where
  whole : d.IsWhole
  admits : o.Admits d.nesting

theorem Fits.array (h : (Draft.array items fault).Fits o) :
    fault = none ∧ ∃ inner, o.enter = .ok inner ∧ ∀ d ∈ items, d.Fits inner := by
  obtain ⟨inner, henter, hinner⟩ := Origin.Admits.enter h.admits
  obtain ⟨hfault, hitems⟩ := isWhole_array_iff.mp h.whole
  exact ⟨hfault, inner, henter, fun d hd => ⟨hitems d hd, hinner.mono (nesting_le_of_mem_items hd)⟩⟩

theorem Fits.object (h : (Draft.object members fault).Fits o) :
    fault = none ∧ ∃ inner, o.enter = .ok inner ∧ ∀ k d, (k, d) ∈ members → d.Fits inner := by
  obtain ⟨inner, henter, hinner⟩ := Origin.Admits.enter h.admits
  obtain ⟨hfault, hmembers⟩ := isWhole_object_iff.mp h.whole
  exact ⟨hfault, inner, henter,
    fun k d hd => ⟨hmembers k d hd, hinner.mono (nesting_le_of_mem_members hd)⟩⟩

/-- An array fits if its items do where it is entered. -/
theorem fits_array (henter : o.enter = .ok inner) (h : ∀ d ∈ items, d.Fits inner) :
    (Draft.array items none).Fits o where
  whole := isWhole_array_iff.mpr ⟨rfl, fun d hd => (h d hd).whole⟩
  admits := by
    refine Origin.Admits.of_enter henter ?_
    induction items with
    | nil => exact Origin.admits_zero_of_enter henter
    | cons d rest ih =>
      obtain ⟨hd, hrest⟩ := List.forall_mem_cons.mp h
      exact hd.admits.max (ih hrest)

/-- An object fits if its values do where it is entered. -/
theorem fits_object (henter : o.enter = .ok inner) (h : ∀ k d, (k, d) ∈ members → d.Fits inner) :
    (Draft.object members none).Fits o where
  whole := isWhole_object_iff.mpr ⟨rfl, fun k d hd => (h k d hd).whole⟩
  admits := by
    refine Origin.Admits.of_enter henter ?_
    induction members with
    | nil => exact Origin.admits_zero_of_enter henter
    | cons member rest ih =>
      have hd := h member.1 member.2 (List.mem_cons_self ..)
      exact hd.admits.max (ih fun k d hmem => h k d (List.mem_cons_of_mem _ hmem))

end Draft

/-! ## Values -/

namespace Shape

open Draft (value)

variable {d : Draft} {o : Origin} {v : Json}

mutual

/-- Where any value may stand, the value of the draft is read. -/
theorem eq_value_of_json : ∀ {d : Draft} {o : Origin} {v : Json}, json o d = .ok v → v = d.value
  | .null, o, v, h => by
    cases h
    rfl
  | .bool b, o, v, h => by
    cases h
    rfl
  | .number (some n), o, v, h => by
    cases h
    rfl
  | .string (some s), o, v, h => by
    cases h
    rfl
  | .array items fault, o, v, h => by
    obtain ⟨inner, -, h⟩ := bind_eq_ok.mp h
    obtain ⟨read, hread, h⟩ := bind_eq_ok.mp h
    obtain ⟨-, -, h⟩ := bind_eq_ok.mp h
    cases h
    rw [value, eq_itemValues_of_jsonItems hread]
  | .object members fault, o, v, h => by
    obtain ⟨inner, -, h⟩ := bind_eq_ok.mp h
    obtain ⟨read, hread, h⟩ := bind_eq_ok.mp h
    obtain ⟨-, -, h⟩ := bind_eq_ok.mp h
    cases h
    rw [value, eq_memberValues_of_jsonMembers hread]

theorem eq_itemValues_of_jsonItems : ∀ {items : List Draft} {o : Origin} {read : List Json},
    jsonItems o items = .ok read → read = Draft.itemValues items
  | [], o, read, h => by
    cases h
    rfl
  | d :: rest, o, read, h => by
    obtain ⟨v, hv, h⟩ := bind_eq_ok.mp h
    obtain ⟨others, hothers, h⟩ := bind_eq_ok.mp h
    cases h
    rw [Draft.itemValues, eq_value_of_json hv, eq_itemValues_of_jsonItems hothers]

theorem eq_memberValues_of_jsonMembers : ∀ {members : List (Option String × Draft)} {o : Origin}
    {read : List (String × Json)}, jsonMembers o members = .ok read →
      read = Draft.memberValues members
  | [], o, read, h => by
    cases h
    rfl
  | (k, d) :: rest, o, read, h => by
    obtain ⟨name, hname, h⟩ := bind_eq_ok.mp h
    obtain ⟨v, hv, h⟩ := bind_eq_ok.mp h
    obtain ⟨others, hothers, h⟩ := bind_eq_ok.mp h
    cases h
    rw [Draft.memberValues, key_eq_ok_iff.mp hname, eq_value_of_json hv,
      eq_memberValues_of_jsonMembers hothers, Option.getD_some]

end

mutual

/-- What has a value can be ignored. -/
theorem skip_of_json : ∀ {d : Draft} {o : Origin} {v : Json}, json o d = .ok v → skip d = .ok ()
  | .null, _, _, _ => rfl
  | .bool _, _, _, _ => rfl
  | .number _, _, _, _ => rfl
  | .string _, _, _, _ => rfl
  | .array items fault, o, v, h => by
    obtain ⟨inner, -, h⟩ := bind_eq_ok.mp h
    obtain ⟨read, hread, h⟩ := bind_eq_ok.mp h
    obtain ⟨⟨⟩, hend, -⟩ := bind_eq_ok.mp h
    rw [skip, skipItems_of_jsonItems hread, ok_bind, hend]
  | .object members fault, o, v, h => by
    obtain ⟨inner, -, h⟩ := bind_eq_ok.mp h
    obtain ⟨read, hread, h⟩ := bind_eq_ok.mp h
    obtain ⟨⟨⟩, hend, -⟩ := bind_eq_ok.mp h
    rw [skip, skipMembers_of_jsonMembers hread, ok_bind, hend]

theorem skipItems_of_jsonItems : ∀ {items : List Draft} {o : Origin} {read : List Json},
    jsonItems o items = .ok read → skipItems items = .ok ()
  | [], _, _, _ => rfl
  | d :: rest, o, read, h => by
    obtain ⟨v, hv, h⟩ := bind_eq_ok.mp h
    obtain ⟨others, hothers, -⟩ := bind_eq_ok.mp h
    rw [skipItems, skip_of_json hv, ok_bind, skipItems_of_jsonItems hothers]

theorem skipMembers_of_jsonMembers : ∀ {members : List (Option String × Draft)} {o : Origin}
    {read : List (String × Json)}, jsonMembers o members = .ok read → skipMembers members = .ok ()
  | [], _, _, _ => rfl
  | (k, d) :: rest, o, read, h => by
    obtain ⟨name, -, h⟩ := bind_eq_ok.mp h
    obtain ⟨v, hv, h⟩ := bind_eq_ok.mp h
    obtain ⟨others, hothers, -⟩ := bind_eq_ok.mp h
    rw [skipMembers, skip_of_json hv, ok_bind, skipMembers_of_jsonMembers hothers]

end

mutual

/-- What is whole can be ignored. -/
theorem skip_of_isWhole : ∀ {d : Draft}, d.IsWhole → skip d = .ok ()
  | .null, _ => rfl
  | .bool _, _ => rfl
  | .number _, _ => rfl
  | .string _, _ => rfl
  | .broken _, h => nomatch h _ (Draft.self_mem_parts _)
  | .array items fault, h => by
    obtain ⟨rfl, hitems⟩ := Draft.isWhole_array_iff.mp h
    rw [skip, skipItems_of_isWhole hitems]
    rfl
  | .object members fault, h => by
    obtain ⟨rfl, hmembers⟩ := Draft.isWhole_object_iff.mp h
    rw [skip, skipMembers_of_isWhole hmembers]
    rfl

theorem skipItems_of_isWhole :
    ∀ {items : List Draft}, (∀ d ∈ items, d.IsWhole) → skipItems items = .ok ()
  | [], _ => rfl
  | d :: rest, h => by
    rw [skipItems, skip_of_isWhole (h d (List.mem_cons_self ..)), ok_bind,
      skipItems_of_isWhole fun d hd => h d (List.mem_cons_of_mem _ hd)]

theorem skipMembers_of_isWhole : ∀ {members : List (Option String × Draft)},
    (∀ k d, (k, d) ∈ members → d.IsWhole) → skipMembers members = .ok ()
  | [], _ => rfl
  | (k, d) :: rest, h => by
    rw [skipMembers, skip_of_isWhole (h k d (List.mem_cons_self ..)), ok_bind,
      skipMembers_of_isWhole fun k d hd => h k d (List.mem_cons_of_mem _ hd)]

end

mutual

/-- What fits has a value if and only if it is legible. -/
theorem exists_json_iff :
    ∀ {d : Draft} {o : Origin}, d.Fits o → ((∃ v, json o d = .ok v) ↔ d.IsLegible)
  | .null, _, _ => iff_of_true ⟨_, rfl⟩ (by decide)
  | .bool _, _, _ => iff_of_true ⟨_, rfl⟩ (by simp [Draft.IsLegible, Draft.parts, Draft.isReadable])
  | .number (some _), _, _ =>
    iff_of_true ⟨_, rfl⟩ (by simp [Draft.IsLegible, Draft.parts, Draft.isReadable])
  | .string s, _, _ => by cases s <;> simp [json, Draft.IsLegible, Draft.parts, Draft.isReadable]
  | .number none, _, h => nomatch h.whole _ (Draft.self_mem_parts _)
  | .broken _, _, h => nomatch h.whole _ (Draft.self_mem_parts _)
  | .array items fault, o, h => by
    obtain ⟨rfl, inner, henter, hitems⟩ := h.array
    rw [Draft.isLegible_array_iff, ← exists_jsonItems_iff hitems]
    constructor
    · rintro ⟨v, hv⟩
      simp only [json, henter, ok_bind] at hv
      obtain ⟨read, hread, -⟩ := bind_eq_ok.mp hv
      exact ⟨read, hread⟩
    · rintro ⟨read, hread⟩
      exact ⟨.array read, by simp [json, henter, hread, ok_bind, atEnd, pure_eq_ok]⟩
  | .object members fault, o, h => by
    obtain ⟨rfl, inner, henter, hmembers⟩ := h.object
    rw [Draft.isLegible_object_iff, ← exists_jsonMembers_iff hmembers]
    constructor
    · rintro ⟨v, hv⟩
      simp only [json, henter, ok_bind] at hv
      obtain ⟨read, hread, -⟩ := bind_eq_ok.mp hv
      exact ⟨read, hread⟩
    · rintro ⟨read, hread⟩
      exact ⟨.object (Dictionary.ofList read),
        by simp [json, henter, hread, ok_bind, atEnd, pure_eq_ok]⟩

theorem exists_jsonItems_iff : ∀ {items : List Draft} {o : Origin}, (∀ d ∈ items, d.Fits o) →
    ((∃ read, jsonItems o items = .ok read) ↔ ∀ d ∈ items, d.IsLegible)
  | [], _, _ => iff_of_true ⟨[], rfl⟩ nofun
  | d :: rest, o, h => by
    obtain ⟨hd, hrest⟩ := List.forall_mem_cons.mp h
    rw [List.forall_mem_cons, ← exists_json_iff hd, ← exists_jsonItems_iff hrest]
    constructor
    · rintro ⟨read, hread⟩
      obtain ⟨v, hv, hbehind⟩ := bind_eq_ok.mp hread
      obtain ⟨others, hothers, -⟩ := bind_eq_ok.mp hbehind
      exact ⟨⟨v, hv⟩, others, hothers⟩
    · rintro ⟨⟨v, hv⟩, others, hothers⟩
      exact ⟨v :: others, by simp [jsonItems, hv, hothers, ok_bind, pure_eq_ok]⟩

theorem exists_jsonMembers_iff : ∀ {members : List (Option String × Draft)} {o : Origin},
    (∀ k d, (k, d) ∈ members → d.Fits o) → ((∃ read, jsonMembers o members = .ok read) ↔
      ∀ k d, (k, d) ∈ members → (∃ name, k = some name) ∧ d.IsLegible)
  | [], _, _ => iff_of_true ⟨[], rfl⟩ nofun
  | (k, d) :: rest, o, h => by
    have hd := exists_json_iff (h k d (List.mem_cons_self ..))
    have hrest := exists_jsonMembers_iff fun k d hd => h k d (List.mem_cons_of_mem _ hd)
    constructor
    · rintro ⟨read, hread⟩ k' d' hmem
      obtain ⟨name, hname, hvalue⟩ := bind_eq_ok.mp hread
      obtain ⟨v, hv, hbehind⟩ := bind_eq_ok.mp hvalue
      obtain ⟨others, hothers, -⟩ := bind_eq_ok.mp hbehind
      rcases List.mem_cons.mp hmem with heq | hmem
      · cases heq
        exact ⟨⟨name, key_eq_ok_iff.mp hname⟩, hd.mp ⟨v, hv⟩⟩
      · exact hrest.mp ⟨others, hothers⟩ k' d' hmem
    · intro hlegible
      obtain ⟨⟨name, rfl⟩, hvalue⟩ := hlegible k d (List.mem_cons_self ..)
      obtain ⟨v, hv⟩ := hd.mpr hvalue
      obtain ⟨others, hothers⟩ :=
        hrest.mpr fun k d hmem => hlegible k d (List.mem_cons_of_mem _ hmem)
      exact ⟨(name, v) :: others, by simp [jsonMembers, key, hv, hothers, ok_bind, pure_eq_ok]⟩

end

/-- What fits and is legible has its value. -/
theorem json_of_fits (h : d.Fits o) (hlegible : d.IsLegible) : json o d = .ok d.value := by
  obtain ⟨v, hv⟩ := (exists_json_iff h).mpr hlegible
  rw [hv, eq_value_of_json hv]

mutual

/-- What has a value fits. -/
theorem fits_of_json : ∀ {d : Draft} {o : Origin} {v : Json}, o.Admits 0 →
    json o d = .ok v → d.Fits o
  | .null, _, _, ho, _ => ⟨by decide, ho⟩
  | .bool b, _, _, ho, _ => ⟨by simp [Draft.IsWhole, Draft.parts, Draft.isSound], ho⟩
  | .number (some n), _, _, ho, _ => ⟨by simp [Draft.IsWhole, Draft.parts, Draft.isSound], ho⟩
  | .string s, _, _, ho, _ => ⟨by simp [Draft.IsWhole, Draft.parts, Draft.isSound], ho⟩
  | .array items fault, o, v, _, h => by
    obtain ⟨inner, henter, h⟩ := bind_eq_ok.mp h
    obtain ⟨read, hread, h⟩ := bind_eq_ok.mp h
    obtain ⟨⟨⟩, hend, -⟩ := bind_eq_ok.mp h
    rw [atEnd_eq_ok_iff.mp hend]
    exact Draft.fits_array henter (fits_of_jsonItems (Origin.admits_zero_of_enter henter) hread)
  | .object members fault, o, v, _, h => by
    obtain ⟨inner, henter, h⟩ := bind_eq_ok.mp h
    obtain ⟨read, hread, h⟩ := bind_eq_ok.mp h
    obtain ⟨⟨⟩, hend, -⟩ := bind_eq_ok.mp h
    rw [atEnd_eq_ok_iff.mp hend]
    exact Draft.fits_object henter (fits_of_jsonMembers (Origin.admits_zero_of_enter henter) hread)

theorem fits_of_jsonItems : ∀ {items : List Draft} {o : Origin} {read : List Json}, o.Admits 0 →
    jsonItems o items = .ok read → ∀ d ∈ items, d.Fits o
  | [], _, _, _, _ => nofun
  | d :: rest, o, read, ho, h => by
    obtain ⟨v, hv, h⟩ := bind_eq_ok.mp h
    obtain ⟨others, hothers, -⟩ := bind_eq_ok.mp h
    exact List.forall_mem_cons.mpr ⟨fits_of_json ho hv, fits_of_jsonItems ho hothers⟩

theorem fits_of_jsonMembers : ∀ {members : List (Option String × Draft)} {o : Origin}
    {read : List (String × Json)}, o.Admits 0 → jsonMembers o members = .ok read →
    ∀ k d, (k, d) ∈ members → d.Fits o
  | [], _, _, _, _ => nofun
  | (k, d) :: rest, o, read, ho, h => by
    obtain ⟨name, -, h⟩ := bind_eq_ok.mp h
    obtain ⟨v, hv, h⟩ := bind_eq_ok.mp h
    obtain ⟨others, hothers, -⟩ := bind_eq_ok.mp h
    intro k' d' hmem
    rcases List.mem_cons.mp hmem with heq | hmem
    · cases heq
      exact fits_of_json ho hv
    · exact fits_of_jsonMembers ho hothers k' d' hmem

end

/-- Where any value may stand, exactly what fits and is legible is read, as its value. -/
theorem json_eq_ok_iff (ho : o.Admits 0) :
    json o d = .ok v ↔ d.Fits o ∧ d.IsLegible ∧ v = d.value := by
  constructor
  · intro h
    have hfits := fits_of_json ho h
    exact ⟨hfits, (exists_json_iff hfits).mp ⟨v, h⟩, eq_value_of_json h⟩
  · rintro ⟨hfits, hlegible, rfl⟩
    exact json_of_fits hfits hlegible

end Shape

namespace Draft

/-! ## Drafts of values -/

theorem ofMembers_eq_map (members : List (String × Json)) :
    ofMembers members = members.map fun member => (some member.1, ofJson member.2) := by
  induction members with
  | nil => rfl
  | cons member rest ih => rw [ofMembers, ih, List.map_cons]

mutual

theorem sound_of_mem_parts_ofJson : ∀ {v : Json} {part : Draft}, part ∈ (ofJson v).parts →
    part.isSound = true ∧ part.isReadable = true
  | .null, part, h => by simp_all [ofJson, parts, isSound, isReadable]
  | .bool b, part, h => by simp_all [ofJson, parts, isSound, isReadable]
  | .number n, part, h => by simp_all [ofJson, parts, isSound, isReadable]
  | .string s, part, h => by simp_all [ofJson, parts, isSound, isReadable]
  | .array items, part, h => by
    rw [ofJson, parts] at h
    rcases List.mem_cons.mp h with rfl | h
    · exact ⟨rfl, rfl⟩
    · exact sound_of_mem_itemParts h
  | .object members, part, h => by
    rw [ofJson, parts] at h
    rcases List.mem_cons.mp h with rfl | h
    · refine ⟨rfl, ?_⟩
      simp [isReadable, ofMembers_eq_map]
    · exact sound_of_mem_memberParts h

theorem sound_of_mem_itemParts : ∀ {items : List Json} {part : Draft},
    part ∈ itemParts (ofItems items) → part.isSound = true ∧ part.isReadable = true
  | [], part, h => by simp [ofItems, itemParts] at h
  | v :: rest, part, h => by
    rw [ofItems, itemParts, List.mem_append] at h
    rcases h with h | h
    · exact sound_of_mem_parts_ofJson h
    · exact sound_of_mem_itemParts h

theorem sound_of_mem_memberParts : ∀ {members : List (String × Json)} {part : Draft},
    part ∈ memberParts (ofMembers members) → part.isSound = true ∧ part.isReadable = true
  | [], part, h => by simp [ofMembers, memberParts] at h
  | (k, v) :: rest, part, h => by
    rw [ofMembers, memberParts, List.mem_append] at h
    rcases h with h | h
    · exact sound_of_mem_parts_ofJson h
    · exact sound_of_mem_memberParts h

end

/-- The draft of a value fits where its nesting is admitted. -/
theorem fits_ofJson {v : Json} (h : o.Admits (ofJson v).nesting) : (ofJson v).Fits o where
  whole _ hpart := (sound_of_mem_parts_ofJson hpart).1
  admits := h

theorem isLegible_ofJson (v : Json) : (ofJson v).IsLegible :=
  fun _ hpart => (sound_of_mem_parts_ofJson hpart).2

theorem memberValues_ofMembers (members : List (String × Json)) :
    memberValues (ofMembers members) =
      members.map fun member => (member.1, (ofJson member.2).value) := by
  induction members with
  | nil => rfl
  | cons member rest ih => rw [ofMembers, memberValues, ih]; rfl

mutual

/-- The value of a draft is what is read for it again. -/
theorem value_ofJson_value : ∀ d : Draft, (ofJson d.value).value = d.value
  | .null => rfl
  | .bool _ => rfl
  | .number none => rfl
  | .number (some _) => rfl
  | .string none => rfl
  | .string (some _) => rfl
  | .broken _ => rfl
  | .array items _ => congrArg Json.array (itemValues_ofItems_itemValues items)
  | .object members _ => by
    have hsame : memberValues (ofMembers (Dictionary.ofList (memberValues members))) =
        Dictionary.ofList (memberValues members) := by
      rw [memberValues_ofMembers]
      conv_rhs => rw [← List.map_id (Dictionary.ofList (memberValues members))]
      refine List.map_congr_left fun member hmember => ?_
      have hvalue := value_ofJson_of_mem members (Dictionary.mem_of_mem_ofList hmember)
      exact Prod.ext rfl hvalue
    have hkeys := Dictionary.pairwise_keys_ofList (memberValues members)
    exact congrArg Json.object
      ((congrArg Dictionary.ofList hsame).trans (Dictionary.ofList_eq_self hkeys))

theorem itemValues_ofItems_itemValues : ∀ items : List Draft,
    itemValues (ofItems (itemValues items)) = itemValues items
  | [] => rfl
  | d :: rest => by
    simp only [itemValues, ofItems, value_ofJson_value d, itemValues_ofItems_itemValues rest]

theorem value_ofJson_of_mem : ∀ (members : List (Option String × Draft)) {member : String × Json},
    member ∈ memberValues members → (ofJson member.2).value = member.2
  | [], _, h => nomatch h
  | (k, d) :: rest, member, h => by
    rw [memberValues] at h
    rcases List.mem_cons.mp h with rfl | h
    · exact value_ofJson_value d
    · exact value_ofJson_of_mem rest h

end

end Draft

end Retrofit

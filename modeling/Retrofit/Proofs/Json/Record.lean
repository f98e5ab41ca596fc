import Mathlib.Data.List.Nodup
import Retrofit.Proofs.Json.Acceptance

/-!
# Which records are read

**Forms.** A form says of a field what it may hold. A draft is a record of some forms if each field
stands in it once, or nowhere if it may be missing (`IsRecord`): as a member of an object under its
name, or as an item of an array at its place. All keys of an object have to be texts, those that are
ignored as well.

**Theorem (`accepts_fields`).** If each field reads what its form says, the record is read if and
only if the draft is a record of the forms.

**Fields one by one.** Of all that is read by name, a single field tells how often it stands there
and what it has made of its part of the record (`named_of_fieldsByName`). The induction is on the
members, with any names found so far. The value of the whole object has the value of the field's
only member (`Draft.get?_of_named_eq_singleton`).
-/

namespace Retrofit

namespace Draft

/-- The members with a name. -/
def named (name : String) (members : List (Option String × Draft)) : List (Option String × Draft) :=
  members.filter (·.1 == some name)

/-- What a field of a record may hold, and whether it must be there. -/
structure Form where
  name : String
  required : Bool
  holds : Draft → Prop

/-- The field stands once among the members and holds what it may, or it need not be there. -/
def Form.StandsIn (form : Form) (members : List (Option String × Draft)) : Prop :=
  match named form.name members with
  | [] => form.required = false
  | [member] => form.holds member.2
  | _ => False

/-- The items are the fields in their order; those at the end may be left out that need not be
there. -/
def Fills : List Form → List Draft → Prop
  | [], items => items = []
  | form :: forms, [] => form.required = false ∧ Fills forms []
  | form :: forms, d :: items => form.holds d ∧ Fills forms items

/-- No key has an unpaired surrogate. -/
def HasTextKeys (members : List (Option String × Draft)) : Prop :=
  ∀ k d, (k, d) ∈ members → ∃ name, k = some name

/-- The draft has the fields of a record, as members or by their place. -/
def IsRecord (forms : List Form) : Draft → Prop
  | .object members _ => HasTextKeys members ∧ ∀ form ∈ forms, form.StandsIn members
  | .array items _ => Fills forms items
  | _ => False

theorem hasTextKeys_cons_iff {k : Option String} {d : Draft}
    {members : List (Option String × Draft)} :
    HasTextKeys ((k, d) :: members) ↔ (∃ name, k = some name) ∧ HasTextKeys members := by
  simp [HasTextKeys, or_imp, forall_and]

theorem named_cons_self (name : String) (d : Draft) (members : List (Option String × Draft)) :
    named name ((some name, d) :: members) = (some name, d) :: named name members := by
  simp [named]

theorem named_cons_of_ne {name other : String} (h : other ≠ name) (d : Draft)
    (members : List (Option String × Draft)) :
    named name ((some other, d) :: members) = named name members := by
  simp [named, h]

theorem mem_named {name : String} {d : Draft} {members : List (Option String × Draft)} :
    (some name, d) ∈ named name members ↔ (some name, d) ∈ members := by
  simp [named]

theorem ne_of_named_eq_nil {name other : String} {d : Draft}
    {members : List (Option String × Draft)}
    (h : named name members = []) (hmem : (some other, d) ∈ members) : other ≠ name := by
  rintro rfl
  rw [← mem_named, h] at hmem
  cases hmem

theorem mem_memberValues_iff {name : String} {v : Json} {members : List (Option String × Draft)}
    (hkeys : HasTextKeys members) :
    (name, v) ∈ memberValues members ↔ ∃ d, (some name, d) ∈ members ∧ v = d.value := by
  induction members with
  | nil => simp [memberValues]
  | cons member rest ih =>
    obtain ⟨k, d⟩ := member
    obtain ⟨⟨first, rfl⟩, hrest⟩ := hasTextKeys_cons_iff.mp hkeys
    rw [memberValues, List.mem_cons, ih hrest]
    simp [or_and_right, exists_or]

/-- An object has no value of a name that is no key of it. -/
theorem get?_of_named_eq_nil {name : String} {members : List (Option String × Draft)}
    (hkeys : HasTextKeys members) (hnamed : named name members = []) :
    Dictionary.get? name (Dictionary.ofList (memberValues members)) = none := by
  refine Option.eq_none_iff_forall_ne_some.mpr fun v hv => ?_
  have hmem := Dictionary.mem_of_mem_ofList (Dictionary.mem_of_get? hv)
  obtain ⟨d, hd, -⟩ := (mem_memberValues_iff hkeys).mp hmem
  exact ne_of_named_eq_nil hnamed hd rfl

/-- The value of a name that is a key once is that of its only member. -/
theorem get?_of_named_eq_singleton {name : String} {d : Draft}
    {members : List (Option String × Draft)}
    (hkeys : HasTextKeys members) (hnamed : named name members = [(some name, d)]) :
    Dictionary.get? name (Dictionary.ofList (memberValues members)) = some d.value := by
  have hmem : (some name, d) ∈ members := mem_named.mp (hnamed ▸ List.mem_singleton_self _)
  obtain ⟨v, hv, hvalue⟩ :=
    Dictionary.exists_get?_ofList ((mem_memberValues_iff hkeys).mpr ⟨d, hmem, rfl⟩)
  obtain ⟨d', hmem', rfl⟩ := (mem_memberValues_iff hkeys).mp hvalue
  rw [← mem_named, hnamed, List.mem_singleton] at hmem'
  cases hmem'
  exact hv

theorem Form.standsIn_iff {form : Form} {members : List (Option String × Draft)} :
    form.StandsIn members ↔ named form.name members = [] ∧ form.required = false ∨
      ∃ d, named form.name members = [(some form.name, d)] ∧ form.holds d := by
  have hkey : ∀ member ∈ named form.name members, member.1 = some form.name := by simp [named]
  unfold Form.StandsIn
  split
  · rename_i hnone
    simp [hnone]
  · rename_i member hone
    have hmember := hkey member (hone ▸ List.mem_singleton_self _)
    simp [hone, Prod.ext_iff, hmember]
  · rename_i hnot hnone
    refine iff_of_false id ?_
    rintro (⟨h, -⟩ | ⟨d, h, -⟩)
    · exact hnot h
    · exact hnone _ h

theorem Form.StandsIn.length_le_one {form : Form} {members : List (Option String × Draft)}
    (h : form.StandsIn members) : (named form.name members).length ≤ 1 := by
  obtain ⟨hnone, -⟩ | ⟨d, hone, -⟩ := Form.standsIn_iff.mp h
  · simp [hnone]
  · simp [hone]

theorem Form.StandsIn.holds {form : Form} {members : List (Option String × Draft)} {d : Draft}
    (h : form.StandsIn members) (hmem : (some form.name, d) ∈ members) : form.holds d := by
  rw [← mem_named] at hmem
  obtain ⟨hnone, -⟩ | ⟨d', hone, hholds⟩ := Form.standsIn_iff.mp h
  · rw [hnone] at hmem
    cases hmem
  · rw [hone, List.mem_singleton] at hmem
    cases hmem
    exact hholds

end Draft

namespace Shape

open Draft (named Form IsRecord Fills HasTextKeys)

variable {α β : Type} {fieldList : List (Field α)} {field : Field α} {form : Form}
  {forms : List Form} {o : Origin} {d : Draft} {members : List (Option String × Draft)}
    {found names : List String} {r r' : α}
  {shape : Shape α} {P : Draft → Prop}

/-- The field reads what its form says, whatever the record was before. -/
structure Field.Follows (field : Field α) (form : Form) : Prop where
  name : field.name = form.name
  required : field.required = form.required
  accepts : ∀ ⦃o : Origin⦄ ⦃d : Draft⦄, d.Fits o → ∀ r,
    (∃ r', field.read o d r = .ok r') ↔ form.holds d

theorem Field.follows_needed {shape : Shape β} (name : String) (set : β → α → α)
    (h : shape.Accepts P) :
    (Field.needed name shape set).Follows ⟨name, true, P⟩ := by
  refine ⟨rfl, rfl, fun o d hfits r => ?_⟩
  show (∃ r', (shape o d).map (set · r) = .ok r') ↔ P d
  rw [← h hfits]
  simp [map_eq_ok]

theorem Field.follows_given {shape : Shape β} (name : String) (set : β → α → α)
    (h : shape.Accepts P) :
    (Field.given name shape set).Follows ⟨name, false, P⟩ := by
  refine ⟨rfl, rfl, fun o d hfits r => ?_⟩
  show (∃ r', (shape o d).map (set · r) = .ok r') ↔ P d
  rw [← h hfits]
  simp [map_eq_ok]

/-! ## Members -/

/-- What one field tells of the members that have been read: it stands nowhere and its part of the
record, `get`, is as before, or it stands once and has made the part. -/
theorem named_of_fieldsByName (field : Field α) (get : α → β)
    (hfield : fieldList.find? (·.name == field.name) = some field)
    (hothers : ∀ other ∈ fieldList, other.name ≠ field.name → ∀ o d r r',
      other.read o d r = .ok r' → get r' = get r)
    (h : fieldsByName fieldList o members found r = .ok (names, r')) :
    (named field.name members = [] ∧ (field.name ∈ names ↔ field.name ∈ found) ∧ get r' = get r) ∨
      ∃ d before after, named field.name members = [(some field.name, d)] ∧ field.name ∉ found ∧
        field.name ∈ names ∧ field.read o d before = .ok after ∧ get r' = get after := by
  induction members generalizing found r with
  | nil =>
    cases h
    exact .inl ⟨rfl, Iff.rfl, rfl⟩
  | cons member rest ih =>
    obtain ⟨k, d⟩ := member
    obtain ⟨name, hname, hrest⟩ := bind_eq_ok.mp h
    obtain rfl := key_eq_ok_iff.mp hname
    cases hfind : fieldList.find? (·.name == name) with
    | none =>
      simp only [hfind] at hrest
      obtain ⟨-, -, hrest⟩ := bind_eq_ok.mp hrest
      have hne : name ≠ field.name := by
        rintro rfl
        rw [hfield] at hfind
        cases hfind
      rw [Draft.named_cons_of_ne hne]
      exact ih hrest
    | some other =>
      simp only [hfind] at hrest
      split_ifs at hrest with hfound
      obtain ⟨next, hnext, hbehind⟩ := bind_eq_ok.mp hrest
      by_cases heq : name = field.name
      · subst heq
        obtain rfl : field = other := Option.some.inj (hfield.symm.trans hfind)
        rw [Draft.named_cons_self]
        rcases ih hbehind with ⟨hnone, hnames, hget⟩ | ⟨_, _, _, -, hnot, -⟩
        · rw [hnone]
          exact .inr ⟨d, r, next, rfl, hfound, hnames.mpr (List.mem_cons_self ..), hnext, hget⟩
        · exact absurd (List.mem_cons_self ..) hnot
      · have hother : other.name = name := by simpa using List.find?_some hfind
        have hkeeps : get next = get r :=
          hothers other (List.mem_of_find?_eq_some hfind) (hother ▸ heq) o d r next hnext
        have hmem : field.name ∈ name :: found ↔ field.name ∈ found := by
          simp [Ne.symm heq]
        rw [Draft.named_cons_of_ne heq, ← hkeeps, ← hmem]
        exact ih hbehind

theorem hasTextKeys_of_fieldsByName
    (h : fieldsByName fieldList o members found r = .ok (names, r')) :
    HasTextKeys members := by
  induction members generalizing found r with
  | nil =>
    intro k d hmem
    cases hmem
  | cons member rest ih =>
    obtain ⟨k, d⟩ := member
    obtain ⟨name, hname, hrest⟩ := bind_eq_ok.mp h
    refine Draft.hasTextKeys_cons_iff.mpr ⟨⟨name, key_eq_ok_iff.mp hname⟩, ?_⟩
    split at hrest
    · obtain ⟨-, -, hrest⟩ := bind_eq_ok.mp hrest
      exact ih hrest
    · split_ifs at hrest
      obtain ⟨next, -, hrest⟩ := bind_eq_ok.mp hrest
      exact ih hrest

/-- A member of another name was ignored. -/
theorem skip_of_fieldsByName (h : fieldsByName fieldList o members found r = .ok (names, r'))
    {name : String}
    (hmem : (some name, d) ∈ members) (hunknown : fieldList.find? (·.name == name) = none) :
    skip d = .ok () := by
  induction members generalizing found r with
  | nil => cases hmem
  | cons member rest ih =>
    obtain ⟨k, first⟩ := member
    obtain ⟨name', hname, hrest⟩ := bind_eq_ok.mp h
    rcases List.mem_cons.mp hmem with heq | hmem
    · cases heq
      obtain rfl : name = name' := Option.some.inj (key_eq_ok_iff.mp hname)
      simp only [hunknown] at hrest
      obtain ⟨⟨⟩, hskip, -⟩ := bind_eq_ok.mp hrest
      exact hskip
    · split at hrest
      · obtain ⟨-, -, hrest⟩ := bind_eq_ok.mp hrest
        exact ih hrest hmem
      · split_ifs at hrest
        obtain ⟨next, -, hrest⟩ := bind_eq_ok.mp hrest
        exact ih hrest hmem

/-- A member with the name of a field was read for it. -/
theorem read_of_fieldsByName (h : fieldsByName fieldList o members found r = .ok (names, r'))
    (hmem : (some field.name, d) ∈ members)
    (hfield : fieldList.find? (·.name == field.name) = some field) :
    ∃ before after, field.read o d before = .ok after := by
  rw [← Draft.mem_named] at hmem
  rcases named_of_fieldsByName field (fun _ => ()) hfield (fun _ _ _ _ _ _ _ _ => rfl) h with
    ⟨hnone, -, -⟩ | ⟨d', before, after, hone, -, -, hread, -⟩
  · rw [hnone] at hmem
    cases hmem
  · rw [hone, List.mem_singleton] at hmem
    cases hmem
    exact ⟨before, after, hread⟩

/-- Members are read if every known name stands once and is read, and all others can be ignored. -/
theorem exists_fieldsByName (hkeys : HasTextKeys members)
    (hunknown : ∀ name d, (some name, d) ∈ members → fieldList.find? (·.name == name) = none →
      skip d = .ok ())
    (hread : ∀ field ∈ fieldList, ∀ d, (some field.name, d) ∈ members → ∀ r,
      ∃ r', field.read o d r = .ok r')
    (honce : ∀ field ∈ fieldList, (named field.name members).length ≤ 1)
    (hfresh : ∀ field ∈ fieldList, field.name ∈ found → named field.name members = []) (r : α) :
    ∃ names r', fieldsByName fieldList o members found r = .ok (names, r') := by
  induction members generalizing found r with
  | nil => exact ⟨found, r, rfl⟩
  | cons member rest ih =>
    obtain ⟨k, d⟩ := member
    obtain ⟨name, rfl⟩ := hkeys k d (List.mem_cons_self ..)
    have hsub : ∀ field ∈ fieldList, (named field.name rest).length ≤ 1 := fun field hfield =>
      Nat.le_trans ((List.sublist_cons_self ..).filter _).length_le (honce field hfield)
    have ih' (found : List String) :=
      @ih found (fun k d hmem => hkeys k d (List.mem_cons_of_mem _ hmem))
      (fun name d hmem => hunknown name d (List.mem_cons_of_mem _ hmem))
      (fun field hfield d hmem => hread field hfield d (List.mem_cons_of_mem _ hmem)) hsub
    cases hfind : fieldList.find? (·.name == name) with
    | none =>
      have hskip := hunknown name d (List.mem_cons_self ..) hfind
      have hne : ∀ field ∈ fieldList, name ≠ field.name := fun field hfield heq =>
        List.find?_eq_none.mp hfind field hfield (by simp [heq])
      obtain ⟨names, r', hrest⟩ := ih' found (fun field hfield hmem => by
        rw [← Draft.named_cons_of_ne (hne field hfield) d]
        exact hfresh field hfield hmem) r
      exact ⟨names, r', by simp [fieldsByName, key, hfind, hskip, hrest, ok_bind]⟩
    | some field =>
      have hfield := List.mem_of_find?_eq_some hfind
      obtain rfl : field.name = name := by simpa using List.find?_some hfind
      have hnot : field.name ∉ found := fun hmem => by
        have hnone := hfresh field hfield hmem
        rw [Draft.named_cons_self] at hnone
        cases hnone
      obtain ⟨next, hnext⟩ := hread field hfield d (List.mem_cons_self ..) r
      obtain ⟨names, r', hrest⟩ := ih' (field.name :: found) (fun other hother hmem => by
        by_cases heq : field.name = other.name
        · have hle := honce other hother
          rw [← heq, Draft.named_cons_self, List.length_cons] at hle
          rw [← heq]
          exact List.length_eq_zero_iff.mp (by omega)
        · rw [← Draft.named_cons_of_ne heq d]
          exact hfresh other hother (by simpa [Ne.symm heq] using hmem)) next
      exact ⟨names, r', by simp [fieldsByName, key, hfind, hnot, hnext, hrest, ok_bind]⟩

/-! ## Members one after the other -/

theorem fieldsByName_cons {k : String} {rest : List (Option String × Draft)}
    (hfind : fieldList.find? (·.name == k) = some field) (hfresh : k ∉ found)
    (hread : field.read o d r = .ok r') :
    fieldsByName fieldList o ((some k, d) :: rest) found r =
      fieldsByName fieldList o rest (k :: found) r' := by
  simp [fieldsByName, key, hfind, hfresh, hread, ok_bind]

theorem fieldsByName_cons_of_unknown {k : String} {rest : List (Option String × Draft)}
    (hfind : fieldList.find? (·.name == k) = none) (hskip : skip d = .ok ()) :
    fieldsByName fieldList o ((some k, d) :: rest) found r =
      fieldsByName fieldList o rest found r := by
  simp [fieldsByName, key, hfind, hskip, ok_bind]

/-- If all members can be ignored, nothing is read. -/
theorem fieldsByName_of_unknown (hkeys : HasTextKeys members)
    (h : ∀ k d, (some k, d) ∈ members → fieldList.find? (·.name == k) = none ∧ skip d = .ok ()) :
    fieldsByName fieldList o members found r = .ok (found, r) := by
  induction members with
  | nil => rfl
  | cons member rest ih =>
    obtain ⟨k, d⟩ := member
    obtain ⟨⟨k, rfl⟩, hothers⟩ := Draft.hasTextKeys_cons_iff.mp hkeys
    obtain ⟨hfind, hskip⟩ := h k d (List.mem_cons_self ..)
    rw [fieldsByName_cons_of_unknown hfind hskip]
    exact ih hothers fun k d hmem => h k d (List.mem_cons_of_mem _ hmem)

/-- If all members but one can be ignored, that one is read. -/
theorem fieldsByName_of_named (hkeys : HasTextKeys members)
    (hskip : ∀ k d, (some k, d) ∈ members → k ≠ field.name → skip d = .ok ())
    (hone : named field.name members = [(some field.name, d)]) (hfresh : field.name ∉ found)
    (hread : field.read o d r = .ok r') :
    fieldsByName [field] o members found r = .ok (field.name :: found, r') := by
  have hunknown : ∀ k, k ≠ field.name → [field].find? (·.name == k) = none := by
    intro k hne
    simp [Ne.symm hne]
  induction members with
  | nil => cases hone
  | cons member rest ih =>
    obtain ⟨k, first⟩ := member
    obtain ⟨⟨k, rfl⟩, hothers⟩ := Draft.hasTextKeys_cons_iff.mp hkeys
    have hrest : ∀ k d, (some k, d) ∈ rest → k ≠ field.name → skip d = .ok () :=
      fun k d hmem => hskip k d (List.mem_cons_of_mem _ hmem)
    by_cases heq : k = field.name
    · subst heq
      rw [Draft.named_cons_self, List.cons.injEq, Prod.mk.injEq] at hone
      obtain ⟨⟨-, rfl⟩, hnone⟩ := hone
      rw [fieldsByName_cons (by simp) hfresh hread]
      refine fieldsByName_of_unknown hothers fun k d hmem => ?_
      have hne := Draft.ne_of_named_eq_nil hnone hmem
      exact ⟨hunknown k hne, hrest k d hmem hne⟩
    · rw [Draft.named_cons_of_ne heq] at hone
      rw [fieldsByName_cons_of_unknown (hunknown k heq) (hskip k first (List.mem_cons_self ..) heq)]
      exact ih hothers hrest hone

/-- A member for something that may be there is read, and found only if it is there; then the
members behind it are. -/
theorem fieldsByName_optional {k : String} {rest : List (Option String × Draft)} {v : Option β}
    {write : β → Draft} {set : Option β → α → α} {shape : Shape (Option β)}
    (hfind : fieldList.find? (·.name == k) = some (.given k shape set)) (hfresh : k ∉ found)
    (hread : ∀ value ∈ v, shape o (write value) = .ok (some value)) (hnone : set none r = r)
    (hrest : ∀ found', (∀ name ∈ found', name = k ∨ name ∈ found) →
      ∃ names, fieldsByName fieldList o rest found' (set v r) = .ok (names, r')) :
    ∃ names, fieldsByName fieldList o
      ((v.map fun value => (some k, write value)).toList ++ rest) found r =
      .ok (names, r') := by
  cases v with
  | none =>
    rw [hnone] at hrest
    exact hrest found fun _ hname => .inr hname
  | some value =>
    have hvalue : (Field.given k shape set).read o (write value) r = .ok (set (some value) r) := by
      show (shape o (write value)).map (set · r) = _
      rw [hread value rfl]
      rfl
    obtain ⟨names, hnames⟩ := hrest (k :: found) fun _ hname => List.mem_cons.mp hname
    exact ⟨names, (fieldsByName_cons hfind hfresh hvalue).trans hnames⟩

/-! ## Records -/

theorem find?_of_mem (hnodup : (fieldList.map (·.name)).Nodup) (h : field ∈ fieldList) :
    fieldList.find? (·.name == field.name) = some field := by
  cases hfind : fieldList.find? (·.name == field.name) with
  | none => simpa using List.find?_eq_none.mp hfind field h
  | some other =>
    have hname : other.name = field.name := by simpa using List.find?_some hfind
    rw [List.inj_on_of_nodup_map hnodup (List.mem_of_find?_eq_some hfind) h hname]

theorem map_name_of_follows (h : List.Forall₂ Field.Follows fieldList forms) :
    fieldList.map (·.name) = forms.map (·.name) := by
  induction h with
  | nil => rfl
  | cons hfield _ ih => rw [List.map_cons, List.map_cons, hfield.name, ih]

theorem exists_form_of_mem (h : List.Forall₂ Field.Follows fieldList forms)
    (hfield : field ∈ fieldList) :
    ∃ form ∈ forms, field.Follows form := by
  induction h with
  | nil => cases hfield
  | cons hfirst _ ih =>
    rcases List.mem_cons.mp hfield with rfl | hfield
    · exact ⟨_, List.mem_cons_self .., hfirst⟩
    · obtain ⟨form, hform, hfollows⟩ := ih hfield
      exact ⟨form, List.mem_cons_of_mem _ hform, hfollows⟩

theorem exists_field_of_mem (h : List.Forall₂ Field.Follows fieldList forms)
    (hform : form ∈ forms) :
    ∃ field ∈ fieldList, field.Follows form := by
  induction h with
  | nil => cases hform
  | cons hfirst _ ih =>
    rcases List.mem_cons.mp hform with rfl | hform
    · exact ⟨_, List.mem_cons_self .., hfirst⟩
    · obtain ⟨field, hfield, hfollows⟩ := ih hform
      exact ⟨field, List.mem_cons_of_mem _ hfield, hfollows⟩

theorem checkFields_eq_ok_iff :
    checkFields fieldList names = .ok () ↔
      ∀ field ∈ fieldList, field.required = true → field.name ∈ names := by
  unfold checkFields
  split
  · rename_i field hfind
    refine iff_of_false nofun fun h => ?_
    have hmissing := List.find?_some hfind
    simp only [Bool.and_eq_true, Bool.not_eq_true', List.contains_eq_mem,
      decide_eq_false_iff_not] at hmissing
    exact hmissing.2 (h field (List.mem_of_find?_eq_some hfind) hmissing.1)
  · rename_i hfind
    refine iff_of_true rfl fun field hfield hrequired => ?_
    simpa [hrequired] using List.find?_eq_none.mp hfind field hfield

/-- The members of an object are read as the fields of a record. -/
def ReadsMembers (fieldList : List (Field α)) (o : Origin) (members : List (Option String × Draft))
    (r r' : α) : Prop :=
  ∃ names, fieldsByName fieldList o members [] r = .ok (names, r') ∧
    checkFields fieldList names = .ok ()

/-- If no field is required, none can be missing. -/
theorem readsMembers_of_fieldsByName (hoptional : ∀ field ∈ fieldList, field.required = false)
    (h : ∃ names, fieldsByName fieldList o members [] r = .ok (names, r')) :
    ReadsMembers fieldList o members r r' := by
  obtain ⟨names, hnames⟩ := h
  refine ⟨names, hnames, checkFields_eq_ok_iff.mpr fun field hfield hrequired => ?_⟩
  rw [hoptional field hfield] at hrequired
  cases hrequired

theorem exists_readsMembers_iff (h : List.Forall₂ Field.Follows fieldList forms)
    (hnodup : (forms.map (·.name)).Nodup)
    (hfits : ∀ k d, (k, d) ∈ members → d.Fits o) :
    (∃ r', ReadsMembers fieldList o members r r') ↔
      HasTextKeys members ∧ ∀ form ∈ forms, form.StandsIn members := by
  rw [← map_name_of_follows h] at hnodup
  constructor
  · rintro ⟨r', names, hread, hcheck⟩
    refine ⟨hasTextKeys_of_fieldsByName hread, fun form hform => ?_⟩
    obtain ⟨field, hfield, hfollows⟩ := exists_field_of_mem h hform
    rw [Form.StandsIn, ← hfollows.name, ← hfollows.required]
    rcases named_of_fieldsByName field (fun _ => ()) (find?_of_mem hnodup hfield)
      (fun _ _ _ _ _ _ _ _ => rfl)
      hread with ⟨hnone, hnames, -⟩ | ⟨d, before, after, hone, -, -, hvalue, -⟩
    · rw [hnone]
      refine Bool.eq_false_iff.mpr fun hrequired => ?_
      exact absurd (hnames.mp (checkFields_eq_ok_iff.mp hcheck field hfield hrequired))
        List.not_mem_nil
    · rw [hone]
      have hmem : (some field.name, d) ∈ members :=
        Draft.mem_named.mp (hone ▸ List.mem_singleton_self _)
      exact (hfollows.accepts (hfits _ _ hmem) before).mp ⟨after, hvalue⟩
  · rintro ⟨hkeys, hforms⟩
    have hstands : ∀ field ∈ fieldList, ∃ form, field.Follows form ∧ form.StandsIn members :=
      fun field hfield => by
        obtain ⟨form, hform, hfollows⟩ := exists_form_of_mem h hfield
        exact ⟨form, hfollows, hforms form hform⟩
    obtain ⟨names, r', hread⟩ :
        ∃ names r', fieldsByName fieldList o members [] r = .ok (names, r') := by
      refine exists_fieldsByName hkeys (fun name d hmem _ => skip_of_isWhole (hfits _ d hmem).whole)
        (fun field hfield d hmem r => ?_)
        (fun field hfield => ?_) (fun _ _ hmem => absurd hmem List.not_mem_nil) r
      · obtain ⟨form, hfollows, hform⟩ := hstands field hfield
        refine (hfollows.accepts (hfits _ d hmem) r).mpr ?_
        exact hform.holds (hfollows.name ▸ hmem)
      · obtain ⟨form, hfollows, hform⟩ := hstands field hfield
        exact hfollows.name ▸ hform.length_le_one
    refine ⟨r', names, hread, checkFields_eq_ok_iff.mpr fun field hfield hrequired => ?_⟩
    obtain ⟨form, hfollows, hform⟩ := hstands field hfield
    rcases named_of_fieldsByName field (fun _ => ()) (find?_of_mem hnodup hfield)
      (fun _ _ _ _ _ _ _ _ => rfl)
      hread with ⟨hnone, -, -⟩ | ⟨-, -, -, -, -, hmem, -⟩
    · rw [Form.StandsIn, ← hfollows.name, hnone, ← hfollows.required, hrequired] at hform
      cases hform
    · exact hmem

/-- The items of an array are read as the fields of a record, and none is left over. -/
theorem exists_fieldsByPlace_iff (h : List.Forall₂ Field.Follows fieldList forms)
    (expected : String) (index : Nat) {items : List Draft} (hfits : ∀ d ∈ items, d.Fits o) :
    (∃ r', fieldsByPlace expected o fieldList index items none r = .ok ([], r')) ↔
      Fills forms items := by
  induction h generalizing items index r with
  | nil => simp [fieldsByPlace, Fills]
  | @cons field form fieldList forms hfield _ ih =>
    cases items with
    | nil =>
      rw [Fills, ← hfield.required, ← ih (index + 1) hfits (r := r)]
      cases hrequired : field.required <;> simp [fieldsByPlace, atEnd, ok_bind, hrequired]
    | cons d items =>
      obtain ⟨hd, hitems⟩ := List.forall_mem_cons.mp hfits
      rw [Fills, ← hfield.accepts hd r]
      constructor
      · rintro ⟨r', hread⟩
        obtain ⟨next, hnext, hbehind⟩ := bind_eq_ok.mp hread
        exact ⟨⟨next, hnext⟩, (ih (index + 1) hitems).mp ⟨r', hbehind⟩⟩
      · rintro ⟨⟨next, hnext⟩, hbehind⟩
        obtain ⟨r', hread⟩ := (ih (index + 1) hitems (r := next)).mpr hbehind
        exact ⟨r', by simp [fieldsByPlace, hnext, hread, ok_bind]⟩

theorem fields_object_eq_ok_iff {type : String} {fault : Option Fault} :
    fields type fieldList r o (.object members fault) = .ok r' ↔
      fault = none ∧ ∃ inner, o.enter = .ok inner ∧ ReadsMembers fieldList inner members r r' := by
  constructor
  · intro h
    obtain ⟨inner, henter, h⟩ := bind_eq_ok.mp h
    obtain ⟨⟨names, read⟩, hread, h⟩ := bind_eq_ok.mp h
    obtain ⟨⟨⟩, hend, h⟩ := bind_eq_ok.mp h
    obtain ⟨⟨⟩, hcheck, h⟩ := bind_eq_ok.mp h
    cases h
    exact ⟨atEnd_eq_ok_iff.mp hend, inner, henter, names, hread, hcheck⟩
  · rintro ⟨rfl, inner, henter, names, hread, hcheck⟩
    simp [fields, henter, hread, hcheck, ok_bind, atEnd, pure_eq_ok]

theorem fields_array_eq_ok_iff {type : String} {items : List Draft} {fault : Option Fault} :
    fields type fieldList r o (.array items fault) = .ok r' ↔
      fault = none ∧ ∃ inner, o.enter = .ok inner ∧
        fieldsByPlace (type ++ " with " ++ elementCount fieldList.length) inner fieldList 0
          items fault r =
          .ok ([], r') := by
  constructor
  · intro h
    obtain ⟨inner, henter, h⟩ := bind_eq_ok.mp h
    obtain ⟨⟨left, read⟩, hread, h⟩ := bind_eq_ok.mp h
    dsimp only at h
    split_ifs at h with hleft
    · obtain ⟨⟨⟩, hend, h⟩ := bind_eq_ok.mp h
      cases h
      rw [List.isEmpty_iff.mp hleft] at hread
      exact ⟨atEnd_eq_ok_iff.mp hend, inner, henter, hread⟩
    · cases h
  · rintro ⟨rfl, inner, henter, hread⟩
    simp [fields, henter, hread, ok_bind, atEnd, pure_eq_ok]

/-- **A record is read if its fields stand in the draft and are read.** -/
theorem accepts_fields {type : String} {initial : α}
    (h : List.Forall₂ Field.Follows fieldList forms)
    (hnodup : (forms.map (·.name)).Nodup) :
    (fields type fieldList initial).Accepts (IsRecord forms) := by
  intro o d hfits
  cases d with
  | object members fault =>
    obtain ⟨rfl, inner, henter, hmembers⟩ := hfits.object
    rw [IsRecord, ← exists_readsMembers_iff h hnodup hmembers (r := initial)]
    simp [fields_object_eq_ok_iff, henter]
  | array items fault =>
    obtain ⟨rfl, inner, henter, hitems⟩ := hfits.array
    rw [IsRecord, ← exists_fieldsByPlace_iff h
      (type ++ " with " ++ elementCount fieldList.length) 0 hitems
      (r := initial)]
    simp [fields_array_eq_ok_iff, henter]
  | _ => exact iff_of_false (fun ⟨_, hread⟩ => mismatch_ne_ok hread) id

end Shape

end Retrofit

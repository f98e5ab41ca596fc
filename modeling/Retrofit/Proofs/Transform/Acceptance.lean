import Retrofit.Transform.Shape
import Retrofit.Proofs.Json.Record

/-!
# Which transforms are read

**Description** (`Draft.Describes`). A transform is an object with a type and perhaps parameters, or
an array of the two. A draft describes at most one kind with its parameters.

**Form** (`Transform.form?`). A known kind asks for parameters of some form, a kind that is not
known for none. The parameters are read as a value first: of members with one key only the last one
counts.

**Theorem (`accepts_transform`).** A transform is read if and only if it is described with
parameters of the form that its kind asks for, and its keys and the texts in its parameters have no
unpaired surrogates.
-/

namespace Retrofit

open Draft (Form IsText IsIndex IsListOf IsRecord named HasTextKeys)
open Shape hiding text index

/-! ## Edits -/

/-- The tag of a draft and its fields: a member beside them or the item in front of them. -/
def Draft.tagged? : Draft → Option (Draft × Draft)
  | .object members fault =>
    (members.find? (·.1 == some "type")).map fun member =>
      (member.2, .object (members.filter (·.1 != some "type")) fault)
  | .array (d :: items) fault => some (d, .array items fault)
  | _ => none

namespace Script.Edit

/-- What the fields of an edit of a known kind have to be. -/
def forms (kind : String) : List Draft.Form :=
  if kind = "unshift" then [⟨"key", false, IsListOf IsIndex⟩, ⟨"value", true, IsText⟩]
  else if kind = "push" then [⟨"value", true, IsText⟩]
  else
    [⟨"left", true, IsListOf IsIndex⟩, ⟨"right", true, IsText⟩,
      ⟨"rightReplace", false, IsListOf (IsRecord
        [⟨"left", true, IsListOf IsIndex⟩, ⟨"right", true, IsListOf IsIndex⟩])⟩]

/-- The draft has a known kind of edit for its tag, and the fields of the kind. -/
def IsEdit (d : Draft) : Prop :=
  ∃ kind body, d.tagged? = some (.string (some kind), body) ∧ kind ∈ kinds ∧
    IsRecord (forms kind) body

theorem accepts_address : Address.shape.Accepts (IsListOf IsIndex) :=
  accepts_list accepts_index

theorem accepts_substitution : Substitution.shape.Accepts
    (IsRecord [⟨"left", true, IsListOf IsIndex⟩, ⟨"right", true, IsListOf IsIndex⟩]) :=
  accepts_fields (.cons (Field.follows_needed _ _ accepts_address)
    (.cons (Field.follows_needed _ _ accepts_address) .nil)) (by decide)

theorem accepts_body (kind : String) : (bodyShape kind).Accepts (IsRecord (forms kind)) := by
  unfold bodyShape forms
  split_ifs
  · exact Accepts.map (accepts_fields (.cons (Field.follows_given _ _ accepts_address)
      (.cons (Field.follows_needed _ _ accepts_text) .nil)) (by decide)) _
  · exact Accepts.map
      (accepts_fields (.cons (Field.follows_needed _ _ accepts_text) .nil) (by decide)) _
  · exact Accepts.map (accepts_fields (.cons (Field.follows_needed _ _ accepts_address)
      (.cons (Field.follows_needed _ _ accepts_text)
        (.cons (Field.follows_given _ _ (accepts_list accepts_substitution)) .nil))) (by decide)) _

theorem kindShape_eq_ok_iff {o : Origin} {d : Draft} {kind : String} :
    kindShape o d = .ok kind ↔ d = .string (some kind) ∧ kind ∈ kinds := by
  constructor
  · intro h
    unfold kindShape at h
    split at h
    · split_ifs at h with hknown
      cases h
      exact ⟨rfl, hknown⟩
    · exact absurd h mismatch_ne_ok
  · rintro ⟨rfl, hknown⟩
    rw [kindShape, if_pos hknown]

/-- An edit is read if its kind is and its fields are, wherever they come from. -/
theorem exists_shape_iff {o : Origin} {d : Draft} :
    (∃ edit, shape o d = .ok edit) ↔ ∃ tag body, d.tagged? = some (tag, body) ∧
      ∃ kind, kindShape o tag = .ok kind ∧ ∃ edit, bodyShape kind .buffer body = .ok edit := by
  cases d with
  | object members fault =>
    cases hfind : members.find? (·.1 == some "type") with
    | none => simp [shape, Draft.tagged?, hfind]
    | some member => simp [shape, Draft.tagged?, hfind, bind_eq_ok, exists_comm]
  | array items fault =>
    cases items with
    | nil => simp [shape, Draft.tagged?]
    | cons d items => simp [shape, Draft.tagged?, bind_eq_ok, exists_comm]
  | _ => exact iff_of_false (fun ⟨_, h⟩ => mismatch_ne_ok h) (by simp [Draft.tagged?])

theorem fits_of_tagged? {o : Origin} {d tag body : Draft} (h : d.Fits o)
    (htagged : d.tagged? = some (tag, body)) :
    body.Fits .buffer := by
  refine ⟨?_, trivial⟩
  cases d with
  | object members fault =>
    obtain ⟨member, -, heq⟩ := Option.map_eq_some_iff.mp htagged
    cases heq
    obtain ⟨hfault, hmembers⟩ := Draft.isWhole_object_iff.mp h.whole
    exact Draft.isWhole_object_iff.mpr
      ⟨hfault, fun k d hmem => hmembers k d (List.mem_filter.mp hmem).1⟩
  | array items fault =>
    cases items with
    | nil => cases htagged
    | cons first items =>
      cases htagged
      obtain ⟨hfault, hitems⟩ := Draft.isWhole_array_iff.mp h.whole
      exact Draft.isWhole_array_iff.mpr
        ⟨hfault, fun d hmem => hitems d (List.mem_cons_of_mem _ hmem)⟩
  | _ => cases htagged

theorem accepts_edit : shape.Accepts IsEdit := by
  intro o d hfits
  rw [exists_shape_iff]
  constructor
  · rintro ⟨tag, body, htagged, kind, hkind, hbody⟩
    obtain ⟨rfl, hknown⟩ := kindShape_eq_ok_iff.mp hkind
    exact ⟨kind, body, htagged, hknown,
      (accepts_body kind (fits_of_tagged? hfits htagged)).mp hbody⟩
  · rintro ⟨kind, body, htagged, hknown, hbody⟩
    exact ⟨_, body, htagged, kind, kindShape_eq_ok_iff.mpr ⟨rfl, hknown⟩,
      (accepts_body kind (fits_of_tagged? hfits htagged)).mpr hbody⟩

end Script.Edit

/-! ## Parameters -/

namespace Transform

/-- The form of the parameters of a known kind. -/
def form? (kind : String) : Option (Draft → Prop) :=
  if kind = "module-wrap" ∨ kind = "es6-modules" then
    some (IsRecord
      [⟨"import", false, IsListOf (IsRecord [⟨"var", true, IsText⟩, ⟨"module", true, IsText⟩])⟩,
        ⟨"export", false, IsListOf (IsRecord [⟨"name", true, IsText⟩, ⟨"var", true, IsText⟩])⟩])
  else if kind = "prepend" then some IsText
  else if kind = "append" then some IsText
  else if kind = "replace" then some (IsRecord [⟨"regex", true, IsText⟩, ⟨"replace", true, IsText⟩])
  else if kind = "plugin-wrap" ∨ kind = "jquery-plugin" then some fun _ => True
  else if kind = "export-default" ∨ kind = "export" then some (IsRecord [⟨"var", true, IsText⟩])
  else if kind = "ast-mutate" ∨ kind = "munge-ast" then some (IsListOf Script.Edit.IsEdit)
  else none

/-- Two texts that both have to be given. -/
theorem accepts_pair {α : Type} (type first second : String) (hne : first ≠ second)
    (set set' : String → α → α) (initial : α) :
    (record type [.needed first Shape.text set, .needed second Shape.text set'] initial).Accepts
      (IsRecord [⟨first, true, IsText⟩, ⟨second, true, IsText⟩]) :=
  accepts_fields (.cons (Field.follows_needed _ _ accepts_text)
    (.cons (Field.follows_needed _ _ accepts_text) .nil)) (by simpa using hne)

theorem accepts_moduleWrap : moduleWrapShape.Accepts (IsRecord
    [⟨"import", false, IsListOf (IsRecord [⟨"var", true, IsText⟩, ⟨"module", true, IsText⟩])⟩,
      ⟨"export", false, IsListOf (IsRecord [⟨"name", true, IsText⟩, ⟨"var", true, IsText⟩])⟩]) :=
  accepts_fields
    (.cons
      (Field.follows_given _ _ (accepts_list (accepts_pair _ "var" "module" (by decide) _ _ _)))
      (.cons
        (Field.follows_given _ _ (accepts_list (accepts_pair _ "name" "var" (by decide) _ _ _)))
          .nil))
    (by decide)

theorem accepts_exportDefault : exportDefaultShape.Accepts (IsRecord [⟨"var", true, IsText⟩]) :=
  accepts_fields (.cons (Field.follows_needed _ _ accepts_text) .nil) (by decide)

/-- Parameters make a transform if they have the form that the kind asks for. -/
theorem exists_ofParts_iff (kind : String) (parameters : Json) :
    (∃ step, ofParts kind parameters = .ok step) ↔
      ∀ form ∈ form? kind, form (Draft.ofJson parameters) := by
  have hread {α : Type} {shape : Shape α} {P : Draft → Prop} (h : shape.Accepts P)
      (make : α → Transform) :
      (∃ step, (Shape.ofJson shape parameters).map make = .ok step) ↔ P (Draft.ofJson parameters) :=
    Accepts.map h make (Draft.fits_ofJson (o := .value) trivial)
  have hform (P : Draft → Prop) :
      (∀ form ∈ some P, form (Draft.ofJson parameters)) ↔ P (Draft.ofJson parameters) := by simp
  unfold ofParts form?
  split_ifs
  · rw [hform]
    exact hread accepts_moduleWrap _
  · rw [hform]
    exact hread accepts_text _
  · rw [hform]
    exact hread accepts_text _
  · rw [hform]
    exact hread (accepts_pair _ "regex" "replace" (by decide) _ _ _) _
  · exact iff_of_true ⟨_, rfl⟩ (by simp)
  · rw [hform]
    exact hread accepts_exportDefault _
  · rw [hform]
    exact hread (accepts_list Script.Edit.accepts_edit) _
  · exact iff_of_true ⟨_, rfl⟩ (by simp)

end Transform

/-! ## Descriptions -/

namespace Draft

/-- The draft describes a kind, with the parameters that are given for it: as members of an object
among others, or as the items of an array. -/
def Describes (kind : String) (given : Option Draft) : Draft → Prop
  | .object members _ =>
    named "type" members = [(some "type", .string (some kind))] ∧
      named "parameters" members = given.toList.map (some "parameters", ·)
  | .array items _ => items = .string (some kind) :: given.toList
  | _ => False

/-- The draft describes a transform: if its kind is known, its parameters have the form that it asks
for. -/
def IsTransform (d : Draft) : Prop :=
  ∃ kind given, d.Describes kind given ∧
    ∀ form ∈ Transform.form? kind, form (ofJson ((given.map value).getD .null))

/-- No key of the draft has an unpaired surrogate, and no text in its parameters. -/
def HasLegibleParts : Draft → Prop
  | .object members _ => HasTextKeys members ∧ ∀ d, (some "parameters", d) ∈ members → d.IsLegible
  | d => d.IsLegible

variable {kind kind' : String} {given given' : Option Draft} {d : Draft}

theorem Describes.unique (h : d.Describes kind given) (h' : d.Describes kind' given') :
    kind = kind' ∧ given = given' := by
  cases d with
  | object members fault =>
    obtain ⟨htype, hgiven⟩ := h
    obtain ⟨htype', hgiven'⟩ := h'
    rw [htype] at htype'
    rw [hgiven] at hgiven'
    cases given <;> cases given' <;> simp_all
  | array items fault =>
    have heq : Draft.string (some kind) :: given.toList = .string (some kind') :: given'.toList :=
      h.symm.trans h'
    cases given <;> cases given' <;> simp_all
  | _ => cases h

end Draft

namespace Transform

open Draft (Describes HasLegibleParts IsTransform)

variable {o : Origin} {d : Draft} {kind : String} {parameters : Json}

/-- What the two parts of a transform have to be. -/
def partForms : List Form :=
  [⟨"type", true, IsText⟩, ⟨"parameters", false, Draft.IsLegible⟩]

theorem accepts_parts : partsShape.Accepts (IsRecord partForms) :=
  accepts_fields (.cons (Field.follows_needed _ _ accepts_text)
    (.cons (Field.follows_given _ _ accepts_json) .nil)) (by decide)

section

variable {members : List (Option String × Draft)} {items : List Draft} {fault : Option Fault}

theorem isRecord_partForms_object_iff : IsRecord partForms (.object members fault) ↔
    (∃ kind given, (Draft.object members fault).Describes kind given) ∧
      (Draft.object members fault).HasLegibleParts := by
  have hmem : (⟨"parameters", false, Draft.IsLegible⟩ : Form) ∈ partForms := by simp [partForms]
  constructor
  · rintro ⟨hkeys, hforms⟩
    refine ⟨?_, hkeys, fun d hd => (hforms _ hmem).holds hd⟩
    obtain ⟨-, hnot⟩ | ⟨_, htype, kind, rfl⟩ :=
      Form.standsIn_iff.mp (hforms _ (List.mem_cons_self ..))
    · cases hnot
    obtain ⟨hnone, -⟩ | ⟨d, hone, -⟩ := Form.standsIn_iff.mp (hforms _ hmem)
    · exact ⟨kind, none, htype, hnone⟩
    · exact ⟨kind, some d, htype, hone⟩
  · rintro ⟨⟨kind, given, htype, hgiven⟩, hkeys, hlegible⟩
    refine ⟨hkeys, List.forall_mem_cons.mpr ⟨?_, List.forall_mem_singleton.mpr ?_⟩⟩
    · exact Form.standsIn_iff.mpr (.inr ⟨_, htype, kind, rfl⟩)
    · cases given with
      | none => exact Form.standsIn_iff.mpr (.inl ⟨hgiven, rfl⟩)
      | some d =>
        have hd : (some "parameters", d) ∈ members :=
          Draft.mem_named.mp (hgiven ▸ List.mem_singleton_self _)
        exact Form.standsIn_iff.mpr (.inr ⟨d, hgiven, hlegible d hd⟩)

theorem isRecord_partForms_array_iff : IsRecord partForms (.array items fault) ↔
    (∃ kind given, (Draft.array items fault).Describes kind given) ∧
      (Draft.array items fault).HasLegibleParts := by
  have hkind (kind : String) :
      (Draft.string (some kind)).IsLegible := Draft.isLegible_ofJson (.string kind)
  have hparts : (Draft.array items fault).HasLegibleParts ↔ ∀ d ∈ items, d.IsLegible :=
    Draft.isLegible_array_iff
  rw [hparts]
  constructor
  · intro h
    match items, h with
    | [_], ⟨⟨kind, rfl⟩, _⟩ => exact ⟨⟨kind, none, rfl⟩, by simp [hkind]⟩
    | [_, d], ⟨⟨kind, rfl⟩, hd, _⟩ =>
      exact ⟨⟨kind, some d, rfl⟩,
        List.forall_mem_cons.mpr ⟨hkind kind, List.forall_mem_singleton.mpr hd⟩⟩
  · rintro ⟨⟨kind, given, hitems⟩, hlegible⟩
    obtain rfl : items = .string (some kind) :: given.toList := hitems
    cases given with
    | none => exact ⟨⟨kind, rfl⟩, rfl, rfl⟩
    | some d => exact ⟨⟨kind, rfl⟩, hlegible d (by simp), rfl⟩

theorem isRecord_partForms_iff :
    IsRecord partForms d ↔ (∃ kind given, d.Describes kind given) ∧ d.HasLegibleParts := by
  cases d with
  | object members fault => exact isRecord_partForms_object_iff
  | array items fault => exact isRecord_partForms_array_iff
  | _ => exact iff_of_false id (fun ⟨⟨_, _, h⟩, _⟩ => h)

theorem describes_of_partsShape_object
    (h : partsShape o (.object members fault) = .ok (kind, parameters)) :
    ∃ given, (Draft.object members fault).Describes kind given ∧
      parameters = (given.map Draft.value).getD .null := by
  rw [partsShape, record, fields_object_eq_ok_iff] at h
  obtain ⟨-, inner, -, names, hread, hcheck⟩ := h
  have htype : named "type" members = [(some "type", .string (some kind))] := by
    rcases named_of_fieldsByName (.needed "type" Shape.text fun v r => (v, r.2)) Prod.fst rfl
      (by simp [Field.needed, Field.given, map_eq_ok]) hread with
      ⟨-, hnames, -⟩ | ⟨d, before, after, hone, -, -, hvalue, hkind⟩
    · have hfound := checkFields_eq_ok_iff.mp hcheck _ (List.mem_cons_self ..) rfl
      exact absurd (hnames.mp hfound) List.not_mem_nil
    · obtain ⟨text, htext, rfl⟩ := map_eq_ok.mp hvalue
      rw [text_eq_ok_iff.mp htext] at hone
      rw [show kind = text from hkind]
      exact hone
  rcases named_of_fieldsByName (.given "parameters" json fun v r => (r.1, v)) Prod.snd rfl
    (by simp [Field.needed, Field.given, map_eq_ok]) hread with
    ⟨hnone, -, hparameters⟩ | ⟨d, before, after, hone, -, -, hvalue, hparameters⟩
  · exact ⟨none, ⟨htype, hnone⟩, hparameters⟩
  · obtain ⟨v, hv, rfl⟩ := map_eq_ok.mp hvalue
    exact ⟨some d, ⟨htype, hone⟩, hparameters.trans (eq_value_of_json hv)⟩

theorem describes_of_partsShape_array
    (h : partsShape o (.array items fault) = .ok (kind, parameters)) :
    ∃ given, (Draft.array items fault).Describes kind given ∧
      parameters = (given.map Draft.value).getD .null := by
  rw [partsShape, record, fields_array_eq_ok_iff] at h
  obtain ⟨-, inner, -, hread⟩ := h
  cases items with
  | nil =>
    obtain ⟨-, -, hread⟩ := bind_eq_ok.mp hread
    cases hread
  | cons d items =>
    obtain ⟨next, hnext, hrest⟩ := bind_eq_ok.mp hread
    obtain ⟨text, htext, rfl⟩ := map_eq_ok.mp hnext
    obtain rfl := text_eq_ok_iff.mp htext
    cases items with
    | nil =>
      obtain ⟨-, -, hrest⟩ := bind_eq_ok.mp hrest
      cases hrest
      exact ⟨none, rfl, rfl⟩
    | cons d' items =>
      obtain ⟨last, hlast, hbehind⟩ := bind_eq_ok.mp hrest
      obtain ⟨v, hv, rfl⟩ := map_eq_ok.mp hlast
      cases hbehind
      exact ⟨some d', rfl, eq_value_of_json hv⟩

end

/-- The parts that are read are those that are described. -/
theorem describes_of_partsShape (h : partsShape o d = .ok (kind, parameters)) :
    ∃ given, d.Describes kind given ∧ parameters = (given.map Draft.value).getD .null := by
  cases d with
  | object members fault => exact describes_of_partsShape_object h
  | array items fault => exact describes_of_partsShape_array h
  | _ => exact absurd h mismatch_ne_ok

/-- **Which transforms are read.** -/
theorem accepts_transform : shape.Accepts fun d => d.IsTransform ∧ d.HasLegibleParts := by
  intro o d hfits
  constructor
  · rintro ⟨step, h⟩
    obtain ⟨⟨kind, parameters⟩, hparts, hstep⟩ := bind_eq_ok.mp h
    obtain ⟨given, hgiven, rfl⟩ := describes_of_partsShape hparts
    have hlegible := (isRecord_partForms_iff.mp ((accepts_parts hfits).mp ⟨_, hparts⟩)).2
    exact ⟨⟨kind, given, hgiven, (exists_ofParts_iff _ _).mp ⟨step, mapError_eq_ok.mp hstep⟩⟩,
      hlegible⟩
  · rintro ⟨⟨kind, given, hgiven, hforms⟩, hlegible⟩
    obtain ⟨⟨kind', parameters⟩, hparts⟩ :=
      (accepts_parts hfits).mpr (isRecord_partForms_iff.mpr ⟨⟨kind, given, hgiven⟩, hlegible⟩)
    obtain ⟨given', hgiven', rfl⟩ := describes_of_partsShape hparts
    obtain ⟨rfl, rfl⟩ := hgiven.unique hgiven'
    obtain ⟨step, hstep⟩ := (exists_ofParts_iff _ _).mpr hforms
    exact ⟨step, bind_eq_ok.mpr ⟨_, hparts, mapError_eq_ok.mpr hstep⟩⟩

end Transform

end Retrofit

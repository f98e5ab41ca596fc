import Retrofit.Project.Loading
import Retrofit.Proofs.Dependency.Reading
import Retrofit.Proofs.Json.Record

/-!
# The two readers of a manifest

The resolver reads the manifest of a project as metadata, which has to be well formed in each of its
fields. A session reads the names of the dependencies only, and ignores all else.

**Theorem (`dependencyNames_of_ofText`).** If the first reader reads a manifest that is an object,
the second one reads it as well, and both have the same names in the same order.

What both look at are the dependencies (`Declares`). Any other member that the first reader has read
can be ignored by the second one (`skip_of_members`), and a dictionary of texts is one of values,
with the same keys (`dictionary_json_of_text`).
-/

namespace Retrofit

open Shape hiding text ofText

variable {o : Origin} {d : Draft} {source : String} {info : PackageMeta}

/-! ## Fields that are read can be ignored -/

namespace Shape

variable {α β : Type} {shape : Shape β} {fieldList : List (Field α)} {r r' : α}

theorem skip_of_text {text : String} (h : Shape.text o d = .ok text) : skip d = .ok () := by
  rw [text_eq_ok_iff.mp h]
  rfl

theorem skip_of_optional (hshape : ∀ v, shape o d = .ok v → skip d = .ok ()) {v : Option β}
    (h : optional shape o d = .ok v) : skip d = .ok () := by
  unfold optional at h
  split at h
  · rfl
  · obtain ⟨v, hv, -⟩ := map_eq_ok.mp h
    exact hshape v hv

theorem skip_of_mainFiles {main : MainFiles} (h : MainFiles.shape o d = .ok main) :
    skip d = .ok () := by
  obtain ⟨v, hv, -⟩ := bind_eq_ok.mp h
  exact skip_of_json hv

/-- What the field reads can be ignored. -/
def Field.Skips (field : Field α) : Prop :=
  ∀ ⦃o d r r'⦄, field.read o d r = .ok r' → skip d = .ok ()

theorem Field.given_skips (name : String) (set : β → α → α)
    (hshape : ∀ o d v, shape o d = .ok v → skip d = .ok ()) :
    (Field.given name shape set).Skips := by
  intro o d r r' h
  obtain ⟨v, hv, -⟩ := map_eq_ok.mp h
  exact hshape o d v hv

/-- A member that was not read for the field `except` can be ignored. -/
theorem skip_of_members {members : List (Option String × Draft)} {found names : List String}
    {name except : String} (h : fieldsByName fieldList o members found r = .ok (names, r'))
    (hfields : ∀ field ∈ fieldList, field.name ≠ except → field.Skips)
    (hmem : (some name, d) ∈ members) (hname : name ≠ except) : skip d = .ok () := by
  cases hfind : fieldList.find? (·.name == name) with
  | none => exact skip_of_fieldsByName h hmem hfind
  | some field =>
    obtain rfl : field.name = name := by simpa using List.find?_some hfind
    obtain ⟨before, after, hread⟩ := read_of_fieldsByName h hmem hfind
    exact hfields field (List.mem_of_find?_eq_some hfind) hname hread

end Shape

/-! ## Dictionaries -/

/-- A dictionary of texts is one of values. -/
theorem Shape.dictionary_json_of_text {texts : Dictionary String}
    (h : dictionary Shape.text o d = .ok texts) :
    dictionary Shape.json o d = .ok (texts.map fun entry => (entry.1, .string entry.2)) := by
  obtain ⟨read, hread, rfl⟩ := map_eq_ok.mp h
  obtain ⟨found, inner, rfl, henter, hfound⟩ := pairs_eq_ok_iff.mp hread
  have hvalues : pairs "a map" (fun _ => Shape.json) o (.object found none) =
      .ok (read.map fun entry => (entry.1, .string entry.2)) := by
    refine pairs_eq_ok_iff.mpr ⟨found, inner, rfl, henter, List.forall₂_map_right_iff.mpr ?_⟩
    refine hfound.imp fun member entry hentry => ⟨hentry.1, ?_⟩
    rw [text_eq_ok_iff.mp hentry.2]
    rfl
  rw [dictionary, hvalues, ← Dictionary.ofList_map]
  rfl

/-! ## Names -/

namespace Manifest

/-- The text holds an object. -/
def IsObject (source : String) : Prop :=
  ∃ members fault, (Draft.read source).1 = .object members fault

/-- The members hold the dependencies of some metadata, a dictionary of texts or nothing at all, and
all others can be ignored. -/
structure Declares (o : Origin) (members : List (Option String × Draft))
    (texts : Dictionary String) : Prop where
  keys : Draft.HasTextKeys members
  others : ∀ name d, (some name, d) ∈ members → name ≠ "dependencies" → skip d = .ok ()
  dependencies : Draft.named "dependencies" members = [] ∧ texts = [] ∨
    ∃ d, Draft.named "dependencies" members = [(some "dependencies", d)] ∧
      dictionary Shape.text o d = .ok texts

variable {members : List (Option String × Draft)} {fault : Option Fault}

theorem declares_of_shape (h : PackageMeta.shape o (.object members fault) = .ok info) :
    fault = none ∧ ∃ inner, o.enter = .ok inner ∧ Declares inner members info.dependencies := by
  rw [PackageMeta.shape, record, fields_object_eq_ok_iff] at h
  obtain ⟨hfault, inner, henter, names, hfields, -⟩ := h
  refine ⟨hfault, inner, henter, hasTextKeys_of_fieldsByName hfields, ?others, ?dependencies⟩
  case others =>
    refine fun name d => skip_of_members hfields fun field hfield hname => ?_
    simp only [List.mem_cons, List.not_mem_nil, or_false] at hfield
    obtain rfl | rfl | rfl | rfl := hfield
    · exact Field.given_skips _ _ fun _ _ _ => skip_of_optional fun _ => skip_of_text
    · exact Field.given_skips _ _ fun _ _ _ => skip_of_optional fun _ => skip_of_text
    · exact Field.given_skips _ _ fun _ _ _ => skip_of_optional fun _ => skip_of_mainFiles
    · exact absurd rfl hname
  case dependencies =>
    obtain ⟨hnone, -, hinfo⟩ | ⟨d, before, after, hone, -, -, hread, hinfo⟩ :=
      named_of_fieldsByName
        (.given "dependencies" (dictionary Shape.text) fun v r => { r with dependencies := v })
        PackageMeta.dependencies rfl (by simp [Field.given, map_eq_ok]) hfields
    · exact .inl ⟨hnone, hinfo⟩
    · obtain ⟨texts, htexts, rfl⟩ := map_eq_ok.mp hread
      exact .inr ⟨d, hone, hinfo ▸ htexts⟩

theorem Declares.readsMembers {texts : Dictionary String} (h : Declares o members texts) :
    ReadsMembers [.given "dependencies" (dictionary Shape.json) fun v _ => Dictionary.keys v]
      o members []
      (Dictionary.keys texts) := by
  refine readsMembers_of_fieldsByName (by simp [Field.given]) ?_
  obtain ⟨hnone, rfl⟩ | ⟨d, hone, htexts⟩ := h.dependencies
  · refine ⟨[], fieldsByName_of_unknown h.keys fun name d hmem => ?_⟩
    have hne := Draft.ne_of_named_eq_nil hnone hmem
    exact ⟨by simp [Field.given, Ne.symm hne], h.others name d hmem hne⟩
  · refine ⟨["dependencies"], fieldsByName_of_named h.keys h.others hone List.not_mem_nil ?_⟩
    refine map_eq_ok.mpr ⟨_, dictionary_json_of_text htexts, ?_⟩
    simp [Dictionary.keys, Function.comp_def]

/-- What is read as metadata is read for its names. -/
theorem dependencyNames_of_ofText (hobject : IsObject source)
    (h : PackageMeta.ofText source = .ok info) :
    (Manifest.mk source).dependencyNames = .ok (Dictionary.keys info.dependencies) := by
  obtain ⟨members, fault, hobject⟩ := hobject
  obtain ⟨hread, hend⟩ := ofText_eq_ok_iff.mp h
  rw [hobject] at hread
  obtain ⟨hfault, inner, henter, hdeclares⟩ := declares_of_shape hread
  refine ofText_eq_ok_iff.mpr ⟨?_, hend⟩
  rw [hobject, namesShape, record, fields_object_eq_ok_iff]
  exact ⟨hfault, inner, henter, hdeclares.readsMembers⟩

/-- Both readers of a manifest and what is made of it have the same names in the same order. -/
structure ReadAlike (source : String) (info : PackageMeta) : Prop where
  names : (Manifest.mk source).dependencyNames = .ok (Dictionary.keys info.dependencies)
  /-- A scan finds a node for each of the names, and puts below it what it finds there. -/
  scanned : ∀ files root config project,
    Files.readText files (Path.under root fileName) = .ok source →
    Dependency.scan root config files = .ok project →
    Dictionary.keys project.dependencies = Dictionary.keys info.dependencies

/-- **Both readers have the same names.** -/
theorem readAlike_of_ofText (hobject : IsObject source) (h : PackageMeta.ofText source = .ok info) :
    ReadAlike source info := by
  refine ⟨dependencyNames_of_ofText hobject h, fun files root config project hsource hscan => ?_⟩
  obtain ⟨manifest, hmanifest, htree⟩ := Dependency.describeBelow_of_scan hscan
  rw [PackageMeta.read_eq_ok_some.mpr ⟨source, hsource, h⟩, Except.ok.injEq] at hmanifest
  subst hmanifest
  exact Dependency.keys_of_mapM_describeNode htree

/-- A session reads the names that the scan has found, or none if there is no manifest. -/
theorem dependencyNames_load {files : Files} {root : String} {manifest : Option PackageMeta}
    (hobject : ∀ source, files.readText (Path.under root fileName) = .ok source → IsObject source)
    (h : PackageMeta.read files (Path.under root fileName) = .ok manifest) :
    (load files root).dependencyNames = .ok (Dictionary.keys (manifest.getD {}).dependencies) := by
  cases manifest with
  | none =>
    rw [load, PackageMeta.read_eq_ok_none.mp h]
    decide +kernel
  | some info =>
    obtain ⟨source, hsource, hinfo⟩ := PackageMeta.read_eq_ok_some.mp h
    rw [load, hsource]
    exact dependencyNames_of_ofText (hobject source hsource) hinfo

end Manifest

end Retrofit

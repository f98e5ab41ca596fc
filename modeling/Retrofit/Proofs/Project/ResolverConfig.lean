import Retrofit.Project.Loading
import Retrofit.Proofs.Json.Printing
import Retrofit.Proofs.Json.Record

/-!
# Settings are kept whole

Of the settings of the package manager the install directory is taken out, and all others are put
aside as they are.

**Reading** (`settings_eq_ok_iff`, `ofText_eq_ok_iff`). One run over the members of an object tells
which can be read: the directory, once at most, as a text or null, and any legible value under each
other key. Other keys may be repeated, and then the last value counts.

**Writing** (`IsSettings.value_toJson`). The directory is put back in front of the other settings.
Their order does not matter to what is read again, since the keys are different.

**Theorem (`keepsSettings`).** So an object of settings is read whole and written as the same
object, but for a directory that is null. From all else that may stand in the place of the file no
part is taken: the settings are the defaults.
-/

namespace Retrofit

open Draft (named HasTextKeys memberValues ofJson)
open Shape hiding ofText ofJson

variable {o : Origin} {d : Draft} {members : List (Option String × Draft)} {fault : Option Fault}
  {source : String} {c c' : ResolverConfig} {object : Dictionary Json} {seen : Bool}

/-- The text is a JSON document that the reader can read, with nothing behind it. -/
structure IsDocument (source : String) (d : Draft) : Prop where
  read : Draft.read source = (d, none)
  fits : d.Fits .document
  legible : d.IsLegible

theorem IsDocument.unique {d d' : Draft} (h : IsDocument source d) (h' : IsDocument source d') :
    d = d' :=
  congrArg Prod.fst (h.read.symm.trans h'.read)

/-- The value is null. -/
def Json.isNull : Json → Bool
  | .null => true
  | _ => false

/-- The text of a value that is one. -/
def Json.text? : Json → Option String
  | .string text => some text
  | _ => none

namespace ResolverConfig

/-! ## Reading -/

/-- The install directory need not be there, and may be null. -/
def directoryForm : Draft.Form :=
  ⟨"directory", false, fun d => d = .null ∨ d.IsText⟩

theorem optional_text_eq_ok_iff {given : Option String} :
    Shape.optional text o d = .ok given ↔ directoryForm.holds d ∧ given = d.value.text? := by
  constructor
  · intro h
    unfold Shape.optional at h
    split at h
    · cases h
      exact ⟨.inl rfl, rfl⟩
    · obtain ⟨directory, hdirectory, rfl⟩ := map_eq_ok.mp h
      obtain rfl := text_eq_ok_iff.mp hdirectory
      exact ⟨.inr ⟨directory, rfl⟩, rfl⟩
  · rintro ⟨rfl | ⟨directory, rfl⟩, rfl⟩
    · rfl
    · rfl

/-- The members that are put aside, with their values. -/
def others (members : List (Option String × Draft)) : List (String × Json) :=
  (memberValues members).filter fun member => member.1 != "directory"

/-- What a run over members reads into settings, where the directory may have been seen before. -/
structure Reads (o : Origin) (members : List (Option String × Draft)) (seen : Bool)
    (c c' : ResolverConfig) : Prop where
  keys : HasTextKeys members
  values : ∀ name d, (some name, d) ∈ members → name ≠ "directory" → d.Fits o ∧ d.IsLegible
  extra :
    c'.extra = (others members).foldl (fun object entry => Dictionary.insert entry.1 entry.2 object)
    c.extra
  directory : named "directory" members = [] ∧ c'.directory = c.directory ∨
    seen = false ∧ ∃ d, named "directory" members = [(some "directory", d)] ∧
      directoryForm.holds d ∧ c'.directory = d.value.text?

theorem reads_nil_iff : Reads o [] seen c c' ↔ c = c' := by
  constructor
  · rintro ⟨-, -, hextra, ⟨-, hdirectory⟩ | ⟨-, d, hnamed, -⟩⟩
    · cases c
      cases c'
      cases hextra
      cases hdirectory
      rfl
    · cases hnamed
  · rintro rfl
    exact ⟨by simp [HasTextKeys], by simp, rfl, .inl ⟨rfl, rfl⟩⟩

theorem reads_directory_iff :
    Reads o ((some "directory", d) :: members) seen c c' ↔
      seen = false ∧ directoryForm.holds d ∧
        Reads o members true { c with directory := d.value.text? } c' := by
  have hothers : others ((some "directory", d) :: members) = others members := by
    simp [others, memberValues]
  constructor
  · rintro ⟨hkeys, hvalues, hextra, hdirectory⟩
    rw [Draft.named_cons_self] at hdirectory
    obtain ⟨hnamed, -⟩ | ⟨hseen, first, hnamed, hholds, hdirectory⟩ := hdirectory
    · cases hnamed
    · obtain ⟨hfirst, hrest⟩ := List.cons.inj hnamed
      cases hfirst
      refine ⟨hseen, hholds, (Draft.hasTextKeys_cons_iff.mp hkeys).2, ?_, hothers ▸ hextra,
        .inl ⟨hrest, hdirectory⟩⟩
      exact fun name d hmem => hvalues name d (List.mem_cons_of_mem _ hmem)
  · rintro ⟨hseen, hholds, hkeys, hvalues, hextra, hdirectory⟩
    obtain ⟨hnamed, hdirectory⟩ | ⟨hfalse, -⟩ := hdirectory
    · refine ⟨Draft.hasTextKeys_cons_iff.mpr ⟨⟨_, rfl⟩, hkeys⟩, ?_, hothers.symm ▸ hextra,
        .inr ⟨hseen, d, ?_, hholds, hdirectory⟩⟩
      · intro name d' hmem hname
        rcases List.mem_cons.mp hmem with heq | hmem
        · cases heq
          exact absurd rfl hname
        · exact hvalues name d' hmem hname
      · rw [Draft.named_cons_self, hnamed]
    · cases hfalse

theorem reads_other_iff {name : String} (hname : name ≠ "directory") :
    Reads o ((some name, d) :: members) seen c c' ↔
      (d.Fits o ∧ d.IsLegible) ∧
        Reads o members seen { c with extra := Dictionary.insert name d.value c.extra } c' := by
  have hothers : others ((some name, d) :: members) = (name, d.value) :: others members := by
    simp [others, memberValues, hname]
  constructor
  · rintro ⟨hkeys, hvalues, hextra, hdirectory⟩
    rw [Draft.named_cons_of_ne hname] at hdirectory
    rw [hothers] at hextra
    refine ⟨hvalues name d (List.mem_cons_self ..) hname,
      (Draft.hasTextKeys_cons_iff.mp hkeys).2, ?_, hextra, hdirectory⟩
    exact fun name d hmem => hvalues name d (List.mem_cons_of_mem _ hmem)
  · rintro ⟨hvalue, hkeys, hvalues, hextra, hdirectory⟩
    refine ⟨Draft.hasTextKeys_cons_iff.mpr ⟨⟨_, rfl⟩, hkeys⟩, ?_, ?_, ?_⟩
    · intro name' d' hmem hname'
      rcases List.mem_cons.mp hmem with heq | hmem
      · cases heq
        exact hvalue
      · exact hvalues name' d' hmem hname'
    · rw [hothers]
      exact hextra
    · rw [Draft.named_cons_of_ne hname]
      exact hdirectory

/-- A run over members, exactly. -/
theorem settings_eq_ok_iff (ho : o.Admits 0) :
    settings o members seen c = .ok c' ↔ Reads o members seen c c' := by
  induction members generalizing seen c with
  | nil => rw [reads_nil_iff, settings, Except.ok.injEq]
  | cons member rest ih =>
    obtain ⟨_ | name, d⟩ := member
    · refine iff_of_false (fun h => ?_) (fun h => ?_)
      · cases h
      · obtain ⟨name, hname⟩ := h.keys none d (List.mem_cons_self ..)
        cases hname
    · rw [settings, key, ok_bind]
      by_cases hname : name = "directory"
      · subst hname
        rw [if_pos rfl, reads_directory_iff, ← ih]
        cases seen with
        | true => simp
        | false =>
          rw [if_neg Bool.false_ne_true, bind_eq_ok]
          simp [optional_text_eq_ok_iff]
      · rw [if_neg hname, reads_other_iff hname, ← ih, bind_eq_ok]
        simp [json_eq_ok_iff ho, and_assoc]

/-- The settings that an object stands for. -/
def ofObject (object : Dictionary Json) : ResolverConfig where
  directory := (Dictionary.get? "directory" object).bind Json.text?
  extra := object.filter fun member => member.1 != "directory"

/-- The members that are put aside one after the other are those of their object. -/
theorem extra_ofObject (members : List (Option String × Draft)) :
    (ofObject (Dictionary.ofList (memberValues members))).extra =
      (others members).foldl (fun object entry => Dictionary.insert entry.1 entry.2 object) [] :=
  (Dictionary.ofList_filter (· != "directory") (memberValues members)).symm

theorem directory_ofObject_of_nil (hkeys : HasTextKeys members)
    (hnamed : named "directory" members = []) :
    (ofObject (Dictionary.ofList (memberValues members))).directory = none := by
  rw [ofObject, Draft.get?_of_named_eq_nil hkeys hnamed, Option.bind_none]

theorem directory_ofObject_of_singleton (hkeys : HasTextKeys members)
    (hnamed : named "directory" members = [(some "directory", d)]) :
    (ofObject (Dictionary.ofList (memberValues members))).directory = d.value.text? := by
  rw [ofObject, Draft.get?_of_named_eq_singleton hkeys hnamed, Option.bind_some]

/-- The settings of all members are those of their object. -/
theorem reads_iff_eq_ofObject :
    Reads o members false {} c ↔ HasTextKeys members ∧
      (∀ name d, (some name, d) ∈ members → name ≠ "directory" → d.Fits o ∧ d.IsLegible) ∧
      directoryForm.StandsIn members ∧ c = ofObject (Dictionary.ofList (memberValues members)) := by
  constructor
  · rintro ⟨hkeys, hvalues, hextra, hdirectory⟩
    refine ⟨hkeys, hvalues, Draft.Form.standsIn_iff.mpr ?_, ?_⟩
    · obtain ⟨hnamed, -⟩ | ⟨-, d, hnamed, hholds, -⟩ := hdirectory
      · exact .inl ⟨hnamed, rfl⟩
      · exact .inr ⟨d, hnamed, hholds⟩
    · have hsame :
          c.directory = (ofObject (Dictionary.ofList (memberValues members))).directory := by
        obtain ⟨hnamed, hdirectory⟩ | ⟨-, d, hnamed, -, hdirectory⟩ := hdirectory
        · rw [hdirectory, directory_ofObject_of_nil hkeys hnamed]
        · rw [hdirectory, directory_ofObject_of_singleton hkeys hnamed]
      cases c
      exact congrArg₂ _ hsame (hextra.trans (extra_ofObject members).symm)
  · rintro ⟨hkeys, hvalues, hstands, rfl⟩
    refine ⟨hkeys, hvalues, extra_ofObject members, ?_⟩
    obtain ⟨hnamed, -⟩ | ⟨d, hnamed, hholds⟩ := Draft.Form.standsIn_iff.mp hstands
    · exact .inl ⟨hnamed, directory_ofObject_of_nil hkeys hnamed⟩
    · exact .inr ⟨rfl, d, hnamed, hholds, directory_ofObject_of_singleton hkeys hnamed⟩

/-- What may stand for the directory can be read. -/
theorem fits_of_holds (ho : o.Admits 0) (h : directoryForm.holds d) : d.Fits o ∧ d.IsLegible := by
  obtain rfl | ⟨text, rfl⟩ := h
  · exact ⟨Draft.fits_ofJson (v := .null) ho, Draft.isLegible_ofJson .null⟩
  · exact ⟨Draft.fits_ofJson (v := .string text) ho, Draft.isLegible_ofJson (.string text)⟩

/-- Exactly the objects whose directory is not given, null or a text are read. -/
theorem shape_eq_ok_iff :
    shape o d = .ok c ↔ ∃ members fault, d = .object members fault ∧ d.Fits o ∧
    d.IsLegible ∧ directoryForm.StandsIn members ∧
      c = ofObject (Dictionary.ofList (memberValues members)) := by
  constructor
  · intro h
    unfold shape at h
    split at h
    · rename_i members fault
      obtain ⟨inner, henter, h⟩ := bind_eq_ok.mp h
      obtain ⟨c', hc', h⟩ := bind_eq_ok.mp h
      obtain ⟨⟨⟩, hend, h⟩ := bind_eq_ok.mp h
      cases h
      cases atEnd_eq_ok_iff.mp hend
      have hinner := Origin.admits_zero_of_enter henter
      obtain ⟨hkeys, hvalues, hstands, heq⟩ :=
        reads_iff_eq_ofObject.mp ((settings_eq_ok_iff hinner).mp hc')
      have hparts : ∀ k d, (k, d) ∈ members → d.Fits inner ∧ d.IsLegible := by
        intro k d hmem
        obtain ⟨name, rfl⟩ := hkeys k d hmem
        by_cases hname : name = "directory"
        · subst hname
          exact fits_of_holds hinner (hstands.holds hmem)
        · exact hvalues name d hmem hname
      refine ⟨members, none, rfl, ?_, ?_, hstands, heq⟩
      · exact Draft.fits_object henter fun k d hmem => (hparts k d hmem).1
      · exact Draft.isLegible_object_iff.mpr fun k d hmem => ⟨hkeys k d hmem, (hparts k d hmem).2⟩
    · exact absurd h mismatch_ne_ok
  · rintro ⟨members, fault, rfl, hfits, hlegible, hstands, rfl⟩
    obtain ⟨rfl, inner, henter, hmembers⟩ := hfits.object
    rw [Draft.isLegible_object_iff] at hlegible
    have hinner := Origin.admits_zero_of_enter henter
    have hsettings := (settings_eq_ok_iff hinner).mpr (reads_iff_eq_ofObject.mpr
      ⟨fun k d hmem => (hlegible k d hmem).1,
        fun name d hmem _ => ⟨hmembers _ d hmem, (hlegible _ d hmem).2⟩, hstands, rfl⟩)
    rw [shape, henter, ok_bind, hsettings]
    rfl

/-- A text of settings, exactly. -/
theorem ofText_eq_ok_iff : ofText source = .ok c ↔ ∃ members fault,
    IsDocument source (.object members fault) ∧ directoryForm.StandsIn members ∧
      c = ofObject (Dictionary.ofList (memberValues members)) := by
  rw [ofText, Shape.ofText_eq_ok_iff, shape_eq_ok_iff]
  constructor
  · rintro ⟨⟨members, fault, hd, hfits, hlegible, hstands, hc⟩, hend⟩
    exact ⟨members, fault, ⟨Prod.ext hd hend, hd ▸ hfits, hd ▸ hlegible⟩, hstands, hc⟩
  · rintro ⟨members, fault, ⟨hread, hfits, hlegible⟩, hstands, hc⟩
    rw [hread]
    exact ⟨⟨members, fault, rfl, hfits, hlegible, hstands, hc⟩, rfl⟩

/-! ## Writing -/

/-- The members that settings are written as, in their order. -/
def written (c : ResolverConfig) : List (String × Json) :=
  (c.directory.map fun directory => ("directory", .string directory)).toList ++ c.extra

/-- The members of an object but for a directory that is null. -/
def kept (object : Dictionary Json) : Dictionary Json :=
  object.filter fun member => !(member.1 == "directory" && member.2.isNull)

/-- The object of a document of settings whose numbers are integers. -/
structure IsSettings (object : Dictionary Json) : Prop where
  ordered : (Dictionary.keys object).Pairwise (· < ·)
  settled : ∀ member ∈ object, (ofJson member.2).value = member.2
  integers : ∀ member ∈ object, (ofJson member.2).HasIntegers
  directory : ∀ v, ("directory", v) ∈ object → v = .null ∨ ∃ text, v = .string text

theorem isSettings_ofList (hkeys : HasTextKeys members) (hstands : directoryForm.StandsIn members)
    (hintegers : (Draft.object members fault).HasIntegers) :
    IsSettings (Dictionary.ofList (memberValues members)) where
  ordered := Dictionary.pairwise_keys_ofList _
  settled _ hmember := Draft.value_ofJson_of_mem members (Dictionary.mem_of_mem_ofList hmember)
  integers _ hmember :=
    Draft.hasIntegers_of_mem_memberValues (Draft.hasIntegers_object_iff.mp hintegers)
    (Dictionary.mem_of_mem_ofList hmember)
  directory v hmember := by
    obtain ⟨d, hmem, rfl⟩ :=
      (Draft.mem_memberValues_iff hkeys).mp (Dictionary.mem_of_mem_ofList hmember)
    obtain rfl | ⟨text, rfl⟩ := hstands.holds hmem
    · exact .inl rfl
    · exact .inr ⟨text, rfl⟩

theorem mem_written {member : String × Json} : member ∈ c.written ↔
    (∃ directory, c.directory = some directory ∧ ("directory", .string directory) = member) ∨
      member ∈ c.extra := by
  rw [written, List.mem_append, Option.mem_toList, Option.map_eq_some_iff]

theorem text?_eq_some_iff {v : Json} {text : String} : v.text? = some text ↔ v = .string text := by
  cases v <;> simp [Json.text?]

namespace IsSettings

variable (h : IsSettings object)
include h

/-- A directory that is not null is a text, so it is written again. -/
theorem mem_written_iff {member : String × Json} :
    member ∈ (ofObject object).written ↔ member ∈ kept object := by
  obtain ⟨name, v⟩ := member
  rw [mem_written, kept, List.mem_filter]
  by_cases hname : name = "directory"
  · subst hname
    have hmem : ("directory", v) ∈ object ↔ Dictionary.get? "directory" object = some v :=
      Dictionary.mem_iff_get? h.ordered
    constructor
    · rintro (⟨directory, hdirectory, heq⟩ | hextra)
      · cases heq
        obtain ⟨v', hget, htext⟩ := Option.bind_eq_some_iff.mp hdirectory
        rw [text?_eq_some_iff.mp htext] at hget
        exact ⟨hmem.mpr hget, rfl⟩
      · exact absurd (List.mem_filter.mp hextra).2 (by simp)
    · rintro ⟨hmember, hnull⟩
      obtain rfl | ⟨text, rfl⟩ := h.directory v hmember
      · cases hnull
      · refine .inl ⟨text, ?_, rfl⟩
        rw [ofObject, hmem.mp hmember]
        rfl
  · simp [ofObject, hname, Ne.symm hname]

theorem written_perm_kept : (ofObject object).written.Perm (kept object) := by
  have hextra : (Dictionary.keys (ofObject object).extra).Nodup :=
    (Dictionary.pairwise_keys_filter h.ordered _).imp String.ne_of_lt
  have hkept : (Dictionary.keys (kept object)).Nodup :=
    (Dictionary.pairwise_keys_filter h.ordered _).imp String.ne_of_lt
  have hwritten : (Dictionary.keys (ofObject object).written).Nodup := by
    rw [written]
    cases (ofObject object).directory with
    | none => exact hextra
    | some directory =>
      refine List.nodup_cons.mpr ⟨fun hmem => ?_, hextra⟩
      obtain ⟨member, hmember, hname⟩ := List.mem_map.mp hmem
      simpa [hname] using (List.mem_filter.mp hmember).2
  exact (List.perm_ext_iff_of_nodup hwritten.of_map hkept.of_map).mpr fun _ => h.mem_written_iff

/-- What is written is the object again, but for a directory that is null. -/
theorem value_toJson : (ofJson (ofObject object).toJson).value = .object (kept object) := by
  have hsame : memberValues (Draft.ofMembers (ofObject object).written) =
      (ofObject object).written := by
    rw [Draft.memberValues_ofMembers]
    refine (List.map_congr_left fun member hmember => ?_).trans (List.map_id _)
    have hobject := List.mem_of_mem_filter (h.mem_written_iff.mp hmember)
    exact Prod.ext rfl (h.settled member hobject)
  have hordered : (Dictionary.keys (kept object)).Pairwise (· < ·) :=
    Dictionary.pairwise_keys_filter h.ordered _
  exact congrArg Json.object ((congrArg Dictionary.ofList hsame).trans
    (Dictionary.ofList_eq_of_perm hordered h.written_perm_kept))

theorem read_text_toJson :
    Draft.read (ofObject object).toJson.text = (ofJson (ofObject object).toJson, none) := by
  refine Draft.read_text_of_hasIntegers
    (Draft.hasIntegers_ofJson_object.mpr fun member hmember => ?_)
  exact h.integers member (List.mem_of_mem_filter (h.mem_written_iff.mp hmember))

end IsSettings

/-! ## Settings are kept -/

/-- The settings keep an object: all of it but the directory is put aside, what they are written as
is the object again unless the directory is null, and the install directory is the one that is given
unless it is empty. -/
structure Keeps (object : Dictionary Json) (c : ResolverConfig) : Prop where
  extra : c.extra = object.filter fun member => member.1 != "directory"
  written : ∃ members, c.toJson = .object members ∧ members.Perm (kept object)
  read : ∃ d, Draft.read c.toJson.text = (d, none) ∧ d.value = .object (kept object)
  given : ∀ directory, Dictionary.get? "directory" object = some (.string directory) →
    directory ≠ "" →
    c.installDirectory = directory
  default :
    (∀ directory, Dictionary.get? "directory" object = some (.string directory) → directory = "") →
    c.installDirectory = defaultDirectory

theorem IsSettings.keeps (h : IsSettings object) : Keeps object (ofObject object) where
  extra := rfl
  written := ⟨_, rfl, h.written_perm_kept⟩
  read := ⟨_, h.read_text_toJson, h.value_toJson⟩
  given directory hget hne := by
    rw [installDirectory, ofObject, hget]
    exact if_neg (mt String.isEmpty_iff.mp hne)
  default hempty := by
    unfold installDirectory ofObject
    cases hdirectory : (Dictionary.get? "directory" object).bind Json.text? with
    | none => rfl
    | some directory =>
      obtain ⟨v, hget, htext⟩ := Option.bind_eq_some_iff.mp hdirectory
      rw [text?_eq_some_iff.mp htext] at hget
      exact if_pos (String.isEmpty_iff.mpr (hempty directory hget))

/-- What may stand in the place of the file without being an object of settings. -/
inductive IsUnusable : Except FileFault String → Prop
  | unreadable (fault : FileFault) : IsUnusable (.error fault)
  | notDocument {source : String} : (∀ d, ¬ IsDocument source d) → IsUnusable (.ok source)
  | notObject {source : String} {d : Draft} : IsDocument source d →
      (∀ members fault, d ≠ .object members fault) → IsUnusable (.ok source)
  | wrongDirectory {source : String} {members : List (Option String × Draft)} {fault : Option Fault}
      {d : Draft} : IsDocument source (.object members fault) → (some "directory", d) ∈ members →
      d ≠ .null → ¬ d.IsText → IsUnusable (.ok source)

theorem ofText_ne_ok_of_isUnusable (h : IsUnusable (.ok source)) : ofText source ≠ .ok c := by
  intro hread
  obtain ⟨members, fault, hdocument, hstands, -⟩ := ofText_eq_ok_iff.mp hread
  cases h with
  | notDocument hnone => exact hnone _ hdocument
  | notObject hd hnot => exact hnot _ _ (hd.unique hdocument)
  | wrongDirectory hd hmem hnull htext =>
    cases hd.unique hdocument
    exact (hstands.holds hmem).elim hnull htext

/-- **Settings are kept whole.** A document that is an object is read if its directory is not given,
null or a text, and with integers as its numbers it is kept. What is read from all else that may
stand in the place of the file are the default settings. -/
theorem keepsSettings :
    (∀ source members fault, IsDocument source (.object members fault) →
      (Draft.object members fault).HasIntegers → directoryForm.StandsIn members →
      ∃ c object, ofText source = .ok c ∧ (Draft.object members fault).value = .object object ∧
        Keeps object c ∧
        ∀ files root, files.readText (Path.under root fileName) = .ok source →
          load files root = c) ∧
    ∀ files root, IsUnusable (files.readText (Path.under root fileName)) →
      load files root = {} := by
  refine ⟨fun source members fault hdocument hintegers hstands => ?_, fun files root h => ?_⟩
  · have hkeys : HasTextKeys members := fun k d hmem =>
      (Draft.isLegible_object_iff.mp hdocument.legible k d hmem).1
    have hread := ofText_eq_ok_iff.mpr ⟨members, fault, hdocument, hstands, rfl⟩
    refine ⟨_, _, hread, rfl, (isSettings_ofList hkeys hstands hintegers).keeps,
      fun files root hfile => ?_⟩
    rw [load, hfile]
    exact congrArg (fun read => read.toOption.getD {}) hread
  · unfold load
    cases hfile : files.readText (Path.under root fileName) with
    | error => rfl
    | ok source =>
      cases hread : ofText source with
      | error => exact congrArg (fun read => read.toOption.getD {}) hread
      | ok c => exact absurd hread (ofText_ne_ok_of_isUnusable (hfile ▸ h))

/-- Settings with a list and both bounds of the integers, and a directory between them. -/
private def nested : String :=
  "\x7b\"registry\": \x7b\"search\": [\"r\", null], \"limit\": 18446744073709551615\x7d, " ++
    "\"directory\": \"vendor\", \"depth\": -9223372036854775808\x7d"

private def nestedMembers : List (Option String × Draft) :=
  [(some "registry", .object [
      (some "search", .array [.string (some "r"), .null] none),
      (some "limit", .number (some (.whole 18446744073709551615)))] none),
    (some "directory", .string (some "vendor")),
    (some "depth", .number (some (.whole (-9223372036854775808))))]

/-- A project in which only the file of the settings stands. -/
private def holding (source : String) : Files where
  nodes := [("/.bowerrc", .file (Text.encode source) 1)]
  current := []

theorem keepsSettings_nested :
    ∃ object, (Draft.object nestedMembers none).value = .object object ∧
      Keeps object (load (holding nested) "/") ∧ load (holding "[]") "/" = {} := by
  have hdocument : IsDocument nested (.object nestedMembers none) :=
    ⟨by decide +kernel, ⟨by decide, show _ < 128 by decide⟩, by decide⟩
  have hintegers : (Draft.object nestedMembers none).HasIntegers := by
    decide
  have hstands : directoryForm.StandsIn nestedMembers :=
    Draft.Form.standsIn_iff.mpr (.inr ⟨.string (some "vendor"), rfl, .inr ⟨"vendor", rfl⟩⟩)
  have hnested : (holding nested).readText (Path.under "/" fileName) = .ok nested := by
    decide +kernel
  have hlist : IsUnusable ((holding "[]").readText (Path.under "/" fileName)) := by
    have hfile : (holding "[]").readText (Path.under "/" fileName) = .ok "[]" := by
      decide +kernel
    have hread : IsDocument "[]" (.array [] none) :=
      ⟨rfl, ⟨by decide, show _ < 128 by decide⟩, by decide⟩
    rw [hfile]
    exact .notObject hread (by simp)
  obtain ⟨c, object, -, hvalue, hkeeps, hload⟩ :=
    keepsSettings.1 nested nestedMembers none hdocument hintegers hstands
  rw [← hload _ _ hnested] at hkeeps
  exact ⟨object, hvalue, hkeeps, keepsSettings.2 _ _ hlist⟩

end ResolverConfig

end Retrofit

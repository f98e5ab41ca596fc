import Mathlib.Data.List.Induction
import Retrofit.Proofs.Catalog.Acceptance
import Retrofit.Proofs.Catalog.Reading
import Retrofit.Proofs.Catalog.Selection

/-!
# Catalogs are read in document order

**Theorem (`readInOrder`).** The patch set of a package and a version is that of the last object for
them. It has each key of the object once, at the place where the key stands first and with what
stands there last (`PatchSet.ReadInOrder`): files to add under `_add`, in the order in which they
are listed, and the transforms of a file under any other key.

Objects of packages and versions are dictionaries, in which the last value counts
(`rel_get?_of_dictionary`). A patch set keeps places as well: pairs put in one after the other have
the keys of their first occurrences (`keys_ofList`) and the values of their last ones
(`mem_ofList_iff`), by induction from the last pair.
-/

namespace Retrofit

open Shape hiding text index

namespace Draft

/-- The keys of an object in document order, repeated ones included. -/
def keys (d : Draft) : List String :=
  d.members.filterMap Prod.fst

/-- What stands last under a key of an object. -/
def last? (key : String) (d : Draft) : Option Draft :=
  (d.members.findRev? (·.1 == some key)).map Prod.snd

/-- What is listed in document order: the items of an array or the values of an object, whatever
their keys. -/
def listed : Draft → List Draft
  | .object members _ => members.map Prod.snd
  | d => d.items

end Draft

/-! ## The last member with a key -/

section Rel

variable {α β γ δ : Type} {R : α → β → Prop} {S : γ → δ → Prop} {x : Option α} {y : Option β}
  {a : α} {b : β}

theorem rel_map {f : α → γ} {g : β → δ} (h : Option.Rel R x y)
    (hmap : ∀ a b, R a b → S (f a) (g b)) :
    Option.Rel S (x.map f) (y.map g) := by
  cases h with
  | none => exact .none
  | some h => exact .some (hmap _ _ h)

theorem rel_bind {f : α → Option γ} {g : β → Option δ} (h : Option.Rel R x y)
    (hbind : ∀ a b, R a b → Option.Rel S (f a) (g b)) : Option.Rel S (x.bind f) (y.bind g) := by
  cases h with
  | none => exact .none
  | some h => exact hbind _ _ h

theorem rel_mono {R' : α → β → Prop} (h : Option.Rel R x y) (hsub : ∀ a b, R a b → R' a b) :
    Option.Rel R' x y := by
  cases h with
  | none => exact .none
  | some h => exact .some (hsub _ _ h)

theorem exists_of_rel_some (h : Option.Rel R x (some b)) : ∃ a, x = some a ∧ R a b := by
  cases h with
  | some h => exact ⟨_, rfl, h⟩

theorem exists_of_some_rel (h : Option.Rel R (some a) y) : ∃ b, y = some b ∧ R a b := by
  cases h with
  | some h => exact ⟨_, rfl, h⟩

/-- In lists that correspond, what is found last corresponds. -/
theorem rel_findRev? {p : α → Bool} {q : β → Bool} {as : List α} {bs : List β}
    (h : List.Forall₂ R as bs) (hpq : ∀ a b, R a b → p a = q b) :
    Option.Rel (fun a b => R a b ∧ q b = true) (as.findRev? p) (bs.findRev? q) := by
  rw [List.findRev?_eq_find?_reverse, List.findRev?_eq_find?_reverse]
  replace h := List.rel_reverse h
  generalize as.reverse = as at h ⊢
  generalize bs.reverse = bs at h ⊢
  induction h with
  | nil => exact .none
  | @cons a b _ _ hab _ ih =>
    rw [List.find?_cons, List.find?_cons, hpq a b hab]
    cases hb : q b with
    | true => exact .some ⟨hab, hb⟩
    | false => exact ih

end Rel

namespace Shape

variable {α : Type} {shape : Shape α} {value : String → Shape α} {o : Origin} {d : Draft}

/-- What stands last under a key is read as the value of the last pair with it. -/
theorem rel_last?_of_members {found : List (Option String × Draft)} {read : List (String × α)}
    (h : List.Forall₂ (ReadsAs value o) found read) (key : String) :
    Option.Rel (fun d v => value key o d = .ok v) ((Draft.object found none).last? key)
      ((read.findRev? (·.1 == key)).map Prod.snd) := by
  refine rel_map (rel_findRev? h fun member pair hread => by simp [hread.1]) ?_
  rintro member pair ⟨hread, hkey⟩
  obtain rfl := eq_of_beq hkey
  exact hread.2

/-- Under a key of a dictionary stands what is read from the last member with the key. -/
theorem rel_get?_of_dictionary {read : Dictionary α} (h : dictionary shape o d = .ok read)
    (key : String) :
    Option.Rel (fun d v => ∃ inner, shape inner d = .ok v) (d.last? key)
    (Dictionary.get? key read) := by
  obtain ⟨all, hall, rfl⟩ := map_eq_ok.mp h
  obtain ⟨found, inner, rfl, -, hfound⟩ := pairs_eq_ok_iff.mp hall
  rw [Dictionary.get?_ofList]
  exact rel_mono (rel_last?_of_members hfound key) fun _ _ hread => ⟨inner, hread⟩

end Shape

/-! ## Places and values of a patch set -/

namespace PatchSet

variable {key : String} {patch : FilePatch} {entries : List (String × FilePatch)}

theorem map_fst_insertEntry : (insertEntry key patch entries).map Prod.fst =
    if key ∈ entries.map Prod.fst then entries.map Prod.fst else entries.map Prod.fst ++ [key] := by
  induction entries with
  | nil => rfl
  | cons first rest ih =>
    by_cases hfirst : first.1 = key
    · subst hfirst
      simp [insertEntry]
    · have hmem : key ∈ (first :: rest).map Prod.fst ↔ key ∈ rest.map Prod.fst := by
        simp [Ne.symm hfirst]
      rw [insertEntry, if_neg hfirst, List.map_cons, ih]
      simp only [hmem]
      split_ifs <;> rfl

theorem mem_insertEntry_iff (hnodup : (entries.map Prod.fst).Nodup) {entry : String × FilePatch} :
    entry ∈ insertEntry key patch entries ↔
      if entry.1 = key then entry = (key, patch) else entry ∈ entries := by
  induction entries with
  | nil =>
    rw [insertEntry, List.mem_singleton]
    split_ifs with heq
    · rfl
    · exact iff_of_false (fun h => heq (congrArg Prod.fst h)) List.not_mem_nil
  | cons first rest ih =>
    obtain ⟨hfresh, hrest⟩ := List.nodup_cons.mp hnodup
    have hne : entry.1 ≠ first.1 → (entry ∈ first :: rest ↔ entry ∈ rest) := fun hne => by
      rw [List.mem_cons, or_iff_right fun h => hne (congrArg Prod.fst h)]
    by_cases hfirst : first.1 = key
    · -- The entry of the key is here, and the key stands nowhere behind it.
      rw [insertEntry, if_pos hfirst, List.mem_cons, hfirst]
      split_ifs with heq
      · exact or_iff_left fun h => hfresh (List.mem_map.mpr ⟨entry, h, heq.trans hfirst.symm⟩)
      · rw [hne (hfirst ▸ heq)]
        exact or_iff_right fun h => heq (congrArg Prod.fst h)
    · rw [insertEntry, if_neg hfirst, List.mem_cons, ih hrest]
      split_ifs with heq
      · exact or_iff_right fun h => hfirst ((congrArg Prod.fst h).symm.trans heq)
      · rw [List.mem_cons]

theorem ofList_append (pairs : List (String × FilePatch)) (last : String × FilePatch) :
    ofList (pairs ++ [last]) = (ofList pairs).insert last.1 last.2 :=
  List.foldl_append ..

theorem nodup_keys_ofList (pairs : List (String × FilePatch)) : (ofList pairs).keys.Nodup := by
  induction pairs using List.reverseRecOn with
  | nil => exact List.nodup_nil
  | append_singleton pairs last ih =>
    rw [ofList_append]
    exact nodup_insertEntry ih

/-- The keys stand where they stand first. -/
theorem keys_ofList (pairs : List (String × FilePatch)) :
    (ofList pairs).keys = (pairs.map Prod.fst).eraseDups := by
  induction pairs using List.reverseRecOn with
  | nil => rfl
  | append_singleton pairs last ih =>
    rw [ofList_append, keys, insert, map_fst_insertEntry, ← keys, ih, List.map_append,
      List.eraseDups_append]
    simp only [List.mem_eraseDups]
    generalize pairs.map Prod.fst = names
    by_cases hlast : last.1 ∈ names <;> simp [List.removeAll, List.eraseDups_cons, hlast]

/-- The values are those that stand last. -/
theorem mem_ofList_iff {pairs : List (String × FilePatch)} :
    (key, patch) ∈ (ofList pairs).entries ↔
      (pairs.findRev? (·.1 == key)).map Prod.snd = some patch := by
  induction pairs using List.reverseRecOn with
  | nil => simp [ofList, empty]
  | append_singleton pairs last ih =>
    rw [ofList_append, insert, mem_insertEntry_iff (nodup_keys_ofList pairs), ih,
      List.findRev?_eq_find?_reverse, List.findRev?_eq_find?_reverse, List.reverse_append,
      List.reverse_singleton, List.singleton_append, List.find?_cons]
    by_cases heq : key = last.1
    · subst heq
      simp [eq_comm, Prod.ext_iff]
    · have hother : (last.1 == key) = false := by simpa using Ne.symm heq
      rw [if_neg heq, hother]

end PatchSet

/-! ## What is read from a document -/

/-- The transform is the one that the draft describes. -/
def Transform.IsReadFrom (t : Draft) (step : Transform) : Prop :=
  ∃ kind given, t.Describes kind given ∧
    ofParts kind ((given.map Draft.value).getD .null) = .ok step

/-- What stands under a key of a patch set, as it is written. -/
inductive FilePatch.IsReadFrom : String → Draft → FilePatch → Prop where
  /-- The files that are listed under `_add`, in their order. -/
  | add {d : Draft} {files : List String}
      (listed : d.listed = files.map fun file => .string (some file)) :
    IsReadFrom PatchSet.addKey d (.add files)
  /-- The transforms of a file, in their order. -/
  | transforms {key : String} {items : List Draft} {fault : Option Fault} {steps : List Transform}
    (file : key ≠ PatchSet.addKey) (inOrder : List.Forall₂ Transform.IsReadFrom items steps) :
    IsReadFrom key (.array items fault) (.transforms steps)

/-- A patch set holds what stands in an object in the order of the document. -/
structure PatchSet.ReadInOrder (d : Draft) (set : PatchSet) : Prop where
  /-- Each key stands once, where it stands first in the object. -/
  keys : set.keys = d.keys.eraseDups
  /-- Under each key is what stands last in the object. -/
  values : ∀ key patch, (key, patch) ∈ set.entries →
    ∃ value, d.last? key = some value ∧ FilePatch.IsReadFrom key value patch
  /-- A file goes through the transforms that were written last for it. -/
  transformsFor?_iff : ∀ file steps, set.transformsFor? file = some steps ↔
    file ≠ addKey ∧ ∃ items fault, d.last? file = some (.array items fault) ∧
      List.Forall₂ Transform.IsReadFrom items steps
  not_isPatched_add : set.isPatched addKey = false

theorem Transform.IsReadFrom.unique : Relator.RightUnique Transform.IsReadFrom := by
  rintro t step step' ⟨kind, given, hgiven, hstep⟩ ⟨kind', given', hgiven', hstep'⟩
  obtain ⟨rfl, rfl⟩ := hgiven.unique hgiven'
  exact Except.ok.inj (hstep.symm.trans hstep')

variable {o : Origin} {d t : Draft} {key : String}

theorem Transform.isReadFrom_of_shape {step : Transform} (h : shape o t = .ok step) :
    Transform.IsReadFrom t step := by
  obtain ⟨⟨kind, parameters⟩, hparts, hstep⟩ := bind_eq_ok.mp h
  obtain ⟨given, hgiven, rfl⟩ := describes_of_partsShape hparts
  exact ⟨kind, given, hgiven, mapError_eq_ok.mp hstep⟩

theorem FilePatch.listed_of_addedShape {files : List String} (h : addedShape o d = .ok files) :
    d.listed = files.map fun file => .string (some file) := by
  rw [← List.forall₂_eq_eq_eq, List.forall₂_map_right_iff]
  unfold addedShape at h
  split at h
  · obtain ⟨items, inner, heq, -, hitems⟩ := list_eq_ok_iff.mp h
    cases heq
    exact hitems.imp fun item file hread => text_eq_ok_iff.mp hread
  · obtain ⟨read, hread, h⟩ := bind_eq_ok.mp h
    cases h
    obtain ⟨found, inner, heq, -, hfound⟩ := pairs_eq_ok_iff.mp hread
    cases heq
    rw [Draft.listed, List.forall₂_map_left_iff, List.forall₂_map_right_iff]
    exact hfound.imp fun member pair hpair => text_eq_ok_iff.mp hpair.2
  · exact absurd h mismatch_ne_ok

theorem FilePatch.isReadFrom_of_shape {patch : FilePatch} (h : shape key o d = .ok patch) :
    FilePatch.IsReadFrom key d patch := by
  unfold shape at h
  split_ifs at h with hadd
  · obtain ⟨files, hfiles, rfl⟩ := map_eq_ok.mp h
    subst hadd
    exact .add (listed_of_addedShape hfiles)
  · obtain ⟨steps, hsteps, rfl⟩ := map_eq_ok.mp h
    obtain ⟨items, inner, rfl, -, hitems⟩ := list_eq_ok_iff.mp hsteps
    exact .transforms hadd (hitems.imp fun item step => Transform.isReadFrom_of_shape)

namespace PatchSet

theorem keys_of_readsAs {found : List (Option String × Draft)} {all : List (String × FilePatch)}
    (h : List.Forall₂ (ReadsAs FilePatch.shape o) found all) :
    (Draft.object found none).keys = all.map Prod.fst := by
  rw [Draft.keys, Draft.members]
  induction h with
  | nil => rfl
  | cons hfirst _ ih => rw [List.filterMap_cons_some hfirst.1, ih, List.map_cons]

/-- An entry of a patch set is read from what stands last under its key. -/
theorem exists_last?_of_mem {found : List (Option String × Draft)} {all : List (String × FilePatch)}
    (h : List.Forall₂ (ReadsAs FilePatch.shape o) found all) {patch : FilePatch}
    (hmem : (key, patch) ∈ (ofList all).entries) :
    ∃ value, (Draft.object found none).last? key = some value ∧
      FilePatch.IsReadFrom key value patch := by
  have hlast := rel_last?_of_members h key
  rw [mem_ofList_iff.mp hmem] at hlast
  obtain ⟨value, hvalue, hread⟩ := exists_of_rel_some hlast
  exact ⟨value, hvalue, FilePatch.isReadFrom_of_shape hread⟩

/-- What stands last under a key is read as the entry of the key. -/
theorem exists_mem_of_last? {found : List (Option String × Draft)} {all : List (String × FilePatch)}
    (h : List.Forall₂ (ReadsAs FilePatch.shape o) found all) {value : Draft}
    (hvalue : (Draft.object found none).last? key = some value) :
    ∃ patch, (key, patch) ∈ (ofList all).entries ∧ FilePatch.IsReadFrom key value patch := by
  have hlast := rel_last?_of_members h key
  rw [hvalue] at hlast
  obtain ⟨patch, hpatch, hread⟩ := exists_of_some_rel hlast
  exact ⟨patch, mem_ofList_iff.mpr hpatch, FilePatch.isReadFrom_of_shape hread⟩

theorem readInOrder_of_shape {set : PatchSet} (h : shape o d = .ok set) : set.ReadInOrder d := by
  have hwell := wellFormed_of_shape h
  obtain ⟨all, hall, rfl⟩ := map_eq_ok.mp h
  obtain ⟨found, inner, rfl, -, hfound⟩ := pairs_eq_ok_iff.mp hall
  have hiff (file : String) (steps : List Transform) :
      (ofList all).transformsFor? file = some steps ↔
      file ≠ addKey ∧ ∃ items fault,
        (Draft.object found none).last? file = some (.array items fault) ∧
        List.Forall₂ Transform.IsReadFrom items steps := by
    rw [hwell.transformsFor?_eq_some_iff]
    constructor
    · intro hmem
      obtain ⟨value, hvalue, hread⟩ := exists_last?_of_mem hfound hmem
      cases hread with
      | transforms hfile hsteps => exact ⟨hfile, _, _, hvalue, hsteps⟩
    · rintro ⟨hfile, items, fault, hvalue, hsteps⟩
      obtain ⟨patch, hmem, hread⟩ := exists_mem_of_last? hfound hvalue
      cases hread with
      | add _ => exact absurd rfl hfile
      | transforms _ hsteps' =>
        rw [List.right_unique_forall₂' Transform.IsReadFrom.unique hsteps hsteps']
        exact hmem
  refine ⟨(keys_ofList all).trans (congrArg _ (keys_of_readsAs hfound).symm),
    fun key patch hmem => exists_last?_of_mem hfound hmem, hiff, ?_⟩
  rw [isPatched, Option.isSome_eq_false_iff, Option.isNone_iff_eq_none,
    Option.eq_none_iff_forall_ne_some]
  exact fun steps hsteps => ((hiff addKey steps).mp hsteps).1 rfl

end PatchSet

/-- **A catalog is read in document order.** -/
theorem Catalog.readInOrder {source : String} {catalog : Catalog} (h : ofText source = .ok catalog)
    (name version : String) :
    Option.Rel PatchSet.ReadInOrder (((Draft.read source).1.last? name).bind (Draft.last? version))
      (catalog.stored? name version) := by
  have hread : shape .document (Draft.read source).1 = .ok catalog := (ofText_eq_ok_iff.mp h).1
  refine rel_bind (rel_get?_of_dictionary hread name) ?_
  rintro package versions ⟨inner, hversions⟩
  refine rel_mono (rel_get?_of_dictionary hversions version) ?_
  rintro found set ⟨innermost, hset⟩
  exact PatchSet.readInOrder_of_shape hset

namespace Catalog

/-- A version that is given twice, with files and `_add` repeated in the second object. -/
private def repeating : String :=
  "\x7b\"a\":\x7b\"1\":\x7b\"x\":[]\x7d,\"1\":\x7b\"f\":[[\"minify\"]],"
    ++ "\"_add\":\x7b\"k\":\"p\",\"k\":\"o\"\x7d,\"e\":[],"
    ++ "\"f\":[[\"prepend\",\"t\"]]\x7d\x7d\x7d"

theorem readInOrder_repeating :
    ofText repeating = .ok [("a", [("1",
        ⟨[("f", .transforms [.prepend "t"]), ("_add", .add ["p", "o"]),
          ("e", .transforms [])]⟩)])] ∧
      ∃ found, ((Draft.read repeating).1.last? "a").bind (Draft.last? "1") = some found ∧
        PatchSet.ReadInOrder found
          ⟨[("f", .transforms [.prepend "t"]), ("_add", .add ["p", "o"]),
            ("e", .transforms [])]⟩ := by
  have hread : ofText repeating = .ok [("a", [("1",
      ⟨[("f", .transforms [.prepend "t"]), ("_add", .add ["p", "o"]),
        ("e", .transforms [])]⟩)])] := by
    decide +kernel
  exact ⟨hread, exists_of_rel_some (readInOrder hread "a" "1")⟩

end Catalog

end Retrofit

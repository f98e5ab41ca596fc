import Retrofit.Catalog.Shape
import Retrofit.Proofs.Transform.Acceptance

/-!
# Which texts hold a catalog

**Shape** (`Draft.IsCatalogOf`). A catalog is an object of packages, each an object of versions,
each an object of files: a list of transforms for each file, and under the key `_add` a list or an
object of file names.

**Theorem (`judged`).** A text within the limits of the reader is accepted if and only if its
document has the shape of a catalog, and no text that is read in it has an unpaired surrogate: no
key, and none in parameters. What is read is not only what is kept. A transform counts wherever it
stands, also in front of another with the same key, and only those of kinds that are not known may
have any parameters.
-/

namespace Retrofit

open Shape hiding text index

namespace Draft

/-- A list of file names, or an object whose values are file names. -/
def IsFileList (d : Draft) : Prop :=
  d.IsListOf IsText ∨ d.IsObjectOf fun _ => IsText

/-- What stands under a key of a patch set, if its transforms have the property. -/
def IsPatchOf (P : Draft → Prop) (key : String) (d : Draft) : Prop :=
  if key = PatchSet.addKey then d.IsFileList else d.IsListOf P

/-- A catalog whose transforms have the property. -/
def IsCatalogOf (P : Draft → Prop) : Draft → Prop :=
  IsObjectOf fun _ => IsObjectOf fun _ => IsObjectOf (IsPatchOf P)

/-- The draft has a transform under some file of some version of some package. -/
def HasTransform (d t : Draft) : Prop :=
  ∃ package ∈ d.members, ∃ version ∈ package.2.members, ∃ file ∈ version.2.members,
    file.1 ≠ some PatchSet.addKey ∧ t ∈ file.2.items

variable {P Q : Draft → Prop} {d t : Draft}

theorem IsPatchOf.mono {key : String} (h : IsPatchOf P key d) (hsub : ∀ d, P d → Q d) :
    IsPatchOf Q key d := by
  unfold IsPatchOf at h ⊢
  split_ifs at h ⊢
  · exact h
  · exact h.mono hsub

theorem IsCatalogOf.mono (h : d.IsCatalogOf P) (hsub : ∀ d, P d → Q d) : d.IsCatalogOf Q :=
  IsObjectOf.mono h fun _ _ hpackage => hpackage.mono fun _ _ hversion =>
    hversion.mono fun _ _ hpatch => hpatch.mono hsub

/-- All transforms of a catalog have the property, wherever they stand. -/
theorem IsCatalogOf.of_hasTransform (h : d.IsCatalogOf P) (ht : d.HasTransform t) : P t := by
  obtain ⟨package, hpackage, version, hversion, file, hfile, hkey, ht⟩ := ht
  obtain ⟨-, -, hversions⟩ := IsObjectOf.of_mem h hpackage
  obtain ⟨-, -, hfiles⟩ := hversions.of_mem hversion
  obtain ⟨key, hname, hpatch⟩ := hfiles.of_mem hfile
  have hne : key ≠ PatchSet.addKey := fun heq => hkey (hname.trans (congrArg some heq))
  rw [IsPatchOf, if_neg hne] at hpatch
  exact hpatch.of_mem ht

end Draft

/-! ## Shapes -/

open Draft (IsText IsFileList IsPatchOf IsCatalogOf)

theorem FilePatch.accepts_addedShape : addedShape.Accepts IsFileList := by
  intro o d hfits
  cases d with
  | array items fault =>
    refine (accepts_list accepts_text hfits).trans ⟨.inl, ?_⟩
    rintro (hlist | ⟨_, _, h, -⟩)
    · exact hlist
    · cases h
  | object members fault =>
    refine (Accepts.map (accepts_pairs "" fun _ => accepts_text) (List.map Prod.snd) hfits).trans
      ⟨.inr, ?_⟩
    rintro (⟨_, _, h, -⟩ | hobject)
    · cases h
    · exact hobject
  | _ =>
    refine iff_of_false (fun ⟨_, h⟩ => mismatch_ne_ok h) ?_
    rintro (⟨_, _, h, -⟩ | ⟨_, _, h, -⟩) <;> cases h

/-- The transform is read: what it describes has the form that its kind asks for, and it is
legible. -/
def Draft.IsReadable (t : Draft) : Prop :=
  t.IsTransform ∧ t.HasLegibleParts

theorem FilePatch.accepts_shape (key : String) :
    (shape key).Accepts (IsPatchOf Draft.IsReadable key) := by
  unfold shape IsPatchOf
  split_ifs
  · exact accepts_addedShape.map _
  · exact (accepts_list Transform.accepts_transform).map _

namespace Catalog

theorem accepts_catalog : shape.Accepts (IsCatalogOf Draft.IsReadable) :=
  accepts_dictionary (accepts_dictionary ((accepts_pairs _ FilePatch.accepts_shape).map _))

/-! ## Texts -/

/-- A text is accepted by the shape of its document. -/
structure Judged (source : String) (d : Draft) : Prop where
  accepted_iff : (∃ catalog, ofText source = .ok catalog) ↔ d.IsCatalogOf Draft.IsReadable
  /-- Transforms of kinds that are not known may have any parameters or none. -/
  unknown : (d.IsCatalogOf fun t => (t.IsTransform ∨
      ∃ kind given, t.Describes kind given ∧ Transform.form? kind = none) ∧ t.HasLegibleParts) →
    ∃ catalog, ofText source = .ok catalog
  /-- A transform whose parameters do not have the form of its kind, wherever it stands. -/
  malformed : ∀ t kind given form, d.HasTransform t → t.Describes kind given →
    Transform.form? kind = some form → ¬ form (Draft.ofJson ((given.map Draft.value).getD .null)) →
    ∀ catalog, ofText source ≠ .ok catalog

/-- **Which texts hold a catalog.** -/
theorem judged {source : String} {d : Draft} (hread : Draft.read source = (d, none))
    (hwhole : d.IsWhole) (hnesting : d.nesting ≤ 127) : Judged source d := by
  have haccepted : (∃ catalog, ofText source = .ok catalog) ↔ d.IsCatalogOf Draft.IsReadable :=
    (accepts_catalog.ofText_iff hread ⟨hwhole, Nat.lt_succ_of_le hnesting⟩).trans (and_iff_left rfl)
  refine ⟨haccepted, fun h => haccepted.mpr (h.mono ?_),
    fun t kind given form ht hgiven hform hnot catalog h => ?_⟩
  · rintro t ⟨ht | ⟨kind, given, hgiven, hnone⟩, hlegible⟩
    · exact ⟨ht, hlegible⟩
    · exact ⟨⟨kind, given, hgiven, by simp [hnone]⟩, hlegible⟩
  · obtain ⟨⟨kind', given', hgiven', hforms⟩, -⟩ := (haccepted.mp ⟨catalog, h⟩).of_hasTransform ht
    obtain ⟨rfl, rfl⟩ := hgiven.unique hgiven'
    exact hnot (hforms form hform)

/-- The second transforms of the file are of an unknown kind, the first ones lack the form of
theirs. -/
private def overwritten : String :=
  "\x7b\"a\":\x7b\"1\":\x7b\"f\":[[\"prepend\",1]],\"f\":[[\"minify\",1]]\x7d\x7d\x7d"

private def overwrittenDraft : Draft :=
  .object [(some "a", .object [(some "1", .object [
    (some "f", .array [.array [.string (some "prepend"), .number (some (.whole 1))] none] none),
    (some "f", .array [.array [.string (some "minify"), .number (some (.whole 1))] none] none)]
      none)] none)] none

theorem judged_overwritten :
    Draft.read overwritten = (overwrittenDraft, none) ∧ overwrittenDraft.IsWhole ∧
      overwrittenDraft.nesting ≤ 127 ∧ ∀ catalog, ofText overwritten ≠ .ok catalog := by
  have hread : Draft.read overwritten = (overwrittenDraft, none) := by decide +kernel
  have hwhole : overwrittenDraft.IsWhole := by decide
  have hnesting : overwrittenDraft.nesting ≤ 127 := by decide
  refine ⟨hread, hwhole, hnesting, (judged hread hwhole hnesting).malformed
    (.array [.string (some "prepend"), .number (some (.whole 1))] none) "prepend"
    (some (.number (some (.whole 1)))) _ ?_ rfl rfl ?_⟩
  · exact ⟨_, List.mem_cons_self .., _, List.mem_cons_self .., _, List.mem_cons_self .., by decide,
      List.mem_cons_self ..⟩
  · rintro ⟨text, htext⟩
    cases htext

/-- A transform of an unknown kind whose parameters are half of a surrogate pair. -/
private def halved : String :=
  "\x7b\"a\":\x7b\"1.0.0\":\x7b\"f\":[\x7b\"type\":\"minify\","
    ++ "\"parameters\":\"\\ud800\"\x7d]\x7d\x7d\x7d"

private def halvedStep : Draft :=
  .object [(some "type", .string (some "minify")), (some "parameters", .string none)] none

private def halvedDraft : Draft :=
  .object
    [(some "a", .object [(some "1.0.0", .object [(some "f", .array [halvedStep] none)] none)] none)]
      none

/-- The forms of the parameters do not decide alone: also those of an unknown kind are read as
texts. -/
theorem not_judged_by_forms :
    Draft.read halved = (halvedDraft, none) ∧ halvedDraft.IsWhole ∧ halvedDraft.nesting ≤ 127 ∧
      halvedDraft.IsCatalogOf Draft.IsTransform ∧ ¬ ∃ catalog, ofText halved = .ok catalog := by
  have hread : Draft.read halved = (halvedDraft, none) := by decide +kernel
  have hwhole : halvedDraft.IsWhole := by decide
  have hnesting : halvedDraft.nesting ≤ 127 := by decide
  have hstep : halvedStep.IsTransform :=
    ⟨"minify", some (.string none), ⟨rfl, rfl⟩, by simp [Transform.form?]⟩
  have hobject {P : String → Draft → Prop} {name : String} {d : Draft} (hd : P name d) :
      (Draft.object [(some name, d)] none).IsObjectOf P :=
    ⟨_, _, rfl, fun k value hmem => by
      cases List.mem_singleton.mp hmem
      exact ⟨name, rfl, hd⟩⟩
  have hshape : halvedDraft.IsCatalogOf Draft.IsTransform := by
    refine hobject (hobject (hobject ?_))
    rw [IsPatchOf, if_neg (by decide)]
    exact ⟨_, _, rfl, List.forall_mem_singleton.mpr hstep⟩
  refine ⟨hread, hwhole, hnesting, hshape, fun haccepted => ?_⟩
  have hcatalog :=
    ((accepts_catalog.ofText_iff hread ⟨hwhole, Nat.lt_succ_of_le hnesting⟩).mp haccepted).1
  have hlegible : halvedStep.HasLegibleParts := (hcatalog.of_hasTransform
    ⟨_, List.mem_cons_self .., _, List.mem_cons_self .., _, List.mem_cons_self .., by decide,
      List.mem_cons_self ..⟩).2
  have hstring : (Draft.string none).IsLegible := hlegible.2 _ (by simp)
  exact absurd hstring (by decide)

end Catalog

end Retrofit

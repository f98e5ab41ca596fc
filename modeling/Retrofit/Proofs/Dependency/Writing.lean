import Retrofit.Proofs.Dependency.Reading
import Retrofit.Proofs.Json.Printing
import Retrofit.Proofs.Json.Record

/-!
# Descriptions survive being written

What is not given is left out of the text, and its default is read; all else is read as it was
written. The order of the keys is lost to no dictionary, since it is the order in which they are
kept.

**Theorem (`ofText_text_toJson`).** A description whose text is not nested too deeply is read back
from its text. So a description that was read from any text is the same after it was written and
read again.

The proof goes down with the fuel of the reader: the metadata of a node is read back
(`shape_toJson`), its nodes are by induction, and a dictionary is if its values are
(`dictionary_ofJson`).
-/

namespace Retrofit

open Shape hiding ofJson ofText

variable {o inner : Origin} {fuel : Nat}

/-! ## Parts of values -/

namespace Draft

/-- A member of a value that is admitted is admitted where the value is entered. -/
theorem admits_of_mem {members : List (String × Json)} {k : String} {v : Json}
    (h : inner.Admits (membersNesting (ofMembers members))) (hmem : (k, v) ∈ members) :
    inner.Admits (ofJson v).nesting := by
  refine h.mono (nesting_le_of_mem_members (k := some k) ?_)
  rw [ofMembers_eq_map]
  exact List.mem_map_of_mem (f := fun member => (some member.1, ofJson member.2)) hmem

/-- The depth of a member is below that of the value. -/
theorem depth_lt_of_mem {members : List (String × Json)} {k : String} {v : Json}
    (hmem : (k, v) ∈ members) : (ofJson v).depth < (ofJson (.object members)).depth := by
  rw [ofJson, depth, Nat.lt_succ_iff]
  induction members with
  | nil => cases hmem
  | cons member rest ih =>
    rw [ofMembers, membersDepth]
    rcases List.mem_cons.mp hmem with rfl | hmem
    · exact Nat.le_max_left ..
    · exact Nat.le_trans (ih hmem) (Nat.le_max_right ..)

end Draft

open Draft (ofJson ofMembers)

/-- A dictionary is read back if its values are. -/
theorem dictionary_ofJson {α : Type} {shape : Shape α} {write : α → Json} {entries : Dictionary α}
    (hkeys : (Dictionary.keys entries).Pairwise (· < ·)) (henter : o.enter = .ok inner)
    (hread : ∀ k v, (k, v) ∈ entries → shape inner (ofJson (write v)) = .ok v) :
    dictionary shape o (ofJson (.object (entries.map fun entry => (entry.1, write entry.2)))) =
      .ok entries := by
  have hpairs : pairs "a map" (fun _ => shape) o
      (ofJson (.object (entries.map fun entry => (entry.1, write entry.2)))) = .ok entries := by
    refine pairs_eq_ok_iff.mpr ⟨_, inner, rfl, henter, ?_⟩
    rw [Draft.ofMembers_eq_map, List.map_map, List.forall₂_map_left_iff, List.forall₂_same]
    exact fun entry hentry => ⟨rfl, hread entry.1 entry.2 hentry⟩
  rw [dictionary, hpairs]
  exact congrArg _ (Dictionary.ofList_eq_self hkeys)

/-! ## Metadata -/

theorem itemValues_ofItems_strings (texts : List String) :
    Draft.itemValues (Draft.ofItems (texts.map .string)) = texts.map .string := by
  induction texts with
  | nil => rfl
  | cons text rest ih => rw [List.map_cons, Draft.ofItems, Draft.itemValues, ih]; rfl

theorem Json.texts?_strings (texts : List String) :
    Json.texts? (texts.map .string) = some texts := by
  induction texts with
  | nil => rfl
  | cons text rest ih =>
    rw [Json.texts?] at ih
    simp [Json.texts?, ih]

theorem MainFiles.shape_toJson (main : MainFiles) (h : o.Admits (ofJson main.toJson).nesting) :
    MainFiles.shape o (ofJson main.toJson) = .ok main := by
  cases main with
  | one file => rfl
  | many files =>
    have hvalue : (ofJson (Json.ofTextList files)).value = Json.ofTextList files := by
      rw [Json.ofTextList, ofJson, Draft.value, itemValues_ofItems_strings]
    unfold MainFiles.shape
    rw [json_of_fits (Draft.fits_ofJson h) (Draft.isLegible_ofJson _), MainFiles.toJson, hvalue,
      ok_bind, Json.ofTextList]
    simp only [Json.texts?_strings]

theorem MainFiles.optional_shape_toJson (main : MainFiles)
    (h : o.Admits (ofJson main.toJson).nesting) :
    optional MainFiles.shape o (ofJson main.toJson) = .ok (some main) := by
  have hread := main.shape_toJson h
  cases main <;> exact congrArg (Except.map some) hread

namespace PackageMeta

/-- The members that metadata is written as, read: each field that is given in its place. -/
theorem ofMembers_toJson (info : PackageMeta) :
    ∃ members, info.toJson = .object members ∧ ofMembers members =
      (info.name.map fun v => (some "name", Draft.string (some v))).toList ++
        ((info.version.map fun v => (some "version", Draft.string (some v))).toList ++
          ((info.main.map fun v => (some "main", ofJson (MainFiles.toJson v))).toList ++
            if info.dependencies.isEmpty then []
            else [(some "dependencies", ofJson (.ofTexts info.dependencies))])) := by
  refine ⟨_, rfl, ?_⟩
  rw [Draft.ofMembers_eq_map]
  cases info.name <;> cases info.version <;> cases info.main <;>
    cases info.dependencies.isEmpty <;> rfl

theorem shape_toJson {info : PackageMeta} (hinfo : info.DeclaresInOrder)
    (h : o.Admits (ofJson info.toJson).nesting) : shape o (ofJson info.toJson) = .ok info := by
  obtain ⟨members, hjson, hmembers⟩ := ofMembers_toJson info
  rw [hjson, ofJson, Draft.nesting, hmembers] at h
  rw [hjson, ofJson]
  obtain ⟨inner, henter, hinner⟩ := h.enter
  have hmain : ∀ main ∈ info.main,
      optional MainFiles.shape inner (ofJson (MainFiles.toJson main)) = .ok (some main) := by
    intro main hmain
    refine main.optional_shape_toJson
      (hinner.mono (Draft.nesting_le_of_mem_members (k := some "main") ?_))
    rw [Option.mem_def.mp hmain]
    simp
  rw [shape, record, fields_object_eq_ok_iff]
  refine ⟨rfl, inner, henter, readsMembers_of_fieldsByName ?_ ?_⟩
  · simp [Field.given]
  rw [hmembers]
  refine fieldsByName_optional rfl List.not_mem_nil (fun _ _ => rfl) rfl fun found₁ hfound₁ => ?_
  refine fieldsByName_optional rfl ?_ (fun _ _ => rfl) rfl fun found₂ hfound₂ => ?_
  · intro hmem
    simpa using hfound₁ _ hmem
  refine fieldsByName_optional rfl ?_ hmain rfl fun found₃ hfound₃ => ?_
  · intro hmem
    simpa using (hfound₂ _ hmem).imp_right (hfound₁ _)
  · cases hempty : info.dependencies.isEmpty with
    | true =>
      obtain ⟨name, version, main, dependencies⟩ := info
      obtain rfl := List.isEmpty_iff.mp hempty
      exact ⟨found₃, rfl⟩
    | false =>
      rw [hempty] at hinner
      obtain ⟨below, hbelow, -⟩ :=
        (hinner.mono (Draft.nesting_le_of_mem_members (k := some "dependencies")
        (d := ofJson (.ofTexts info.dependencies)) (by simp))).enter
      have hfresh : "dependencies" ∉ found₃ := fun hmem => by
        simpa using (hfound₃ _ hmem).imp_right fun hmem => (hfound₂ _ hmem).imp_right (hfound₁ _)
      have hread : dictionary text inner (ofJson (.ofTexts info.dependencies)) =
          .ok info.dependencies :=
        dictionary_ofJson hinfo hbelow fun _ _ _ => rfl
      refine ⟨"dependencies" :: found₃, (fieldsByName_cons rfl hfresh ?_).trans rfl⟩
      exact congrArg (Except.map _) hread

theorem hasNoNumber_toJson (info : PackageMeta) : info.toJson.HasNoNumber := by
  have hmain : ∀ main ∈ info.main, (MainFiles.toJson main).HasNoNumber := by
    rintro (file | files) -
    · exact trivial
    · exact Json.noneHasNumber_iff.mpr fun v hv => by
        obtain ⟨file, -, rfl⟩ := List.mem_map.mp hv
        exact trivial
  have hdependencies : (Json.ofTexts info.dependencies).HasNoNumber := by
    refine Json.noMemberHasNumber_iff.mpr fun member hmember => ?_
    obtain ⟨entry, -, rfl⟩ := List.mem_map.mp hmember
    exact trivial
  refine Json.noMemberHasNumber_iff.mpr fun member hmember => ?_
  simp only [List.mem_append, Option.mem_toList, Option.map_eq_some_iff] at hmember
  rcases hmember with ((⟨name, -, rfl⟩ | ⟨version, -, rfl⟩) | ⟨main, hgiven, rfl⟩) | hmember
  · exact trivial
  · exact trivial
  · exact hmain main hgiven
  · split at hmember
    · cases hmember
    · rw [List.mem_singleton.mp hmember]
      exact hdependencies

end PackageMeta

namespace Dependency

/-! ## Nodes -/

theorem toMembers_eq_map (nodes : List (String × Dependency)) :
    toMembers nodes = nodes.map fun entry => (entry.1, entry.2.toJson) := by
  induction nodes with
  | nil => rfl
  | cons entry rest ih => rw [toMembers, ih, List.map_cons]

theorem mem_toMembers {nodes : List (String × Dependency)} {name : String} {node : Dependency}
    (h : (name, node) ∈ nodes) : (name, node.toJson) ∈ toMembers nodes := by
  rw [toMembers_eq_map]
  exact List.mem_map_of_mem (f := fun entry => (entry.1, toJson entry.2)) h

/-- A node is read back from its value, with fuel for its depth. -/
theorem shapeWithin_toJson {node : Dependency} (hnode : node.IsSorted)
    (hfuel : (ofJson node.toJson).depth ≤ fuel) (h : o.Admits (ofJson node.toJson).nesting) :
    shapeWithin fuel o (ofJson node.toJson) = .ok node := by
  induction fuel generalizing node o with
  | zero =>
    cases node
    simp [toJson, ofJson, Draft.depth] at hfuel
  | succ fuel ih =>
    obtain @⟨info, missing, below, hdeclared, hnames, hnodes⟩ := hnode
    rw [toJson] at hfuel h ⊢
    rw [ofJson, Draft.nesting] at h
    obtain ⟨inner, henter, hinner⟩ := h.enter
    have hmeta : PackageMeta.shape inner (ofJson info.toJson) = .ok info :=
      PackageMeta.shape_toJson hdeclared (Draft.admits_of_mem (k := "pkgMeta") hinner (by simp))
    have hbelow : dictionary (shapeWithin fuel) inner (ofJson (.object (toMembers below))) =
        .ok below := by
      have hentered : inner.Admits (ofJson (.object (toMembers below))).nesting :=
        Draft.admits_of_mem (k := "dependencies") hinner (by simp)
      rw [ofJson, Draft.nesting] at hentered
      obtain ⟨innermost, henter', hinnermost⟩ := hentered.enter
      have hread : ∀ name node, (name, node) ∈ below →
          shapeWithin fuel innermost (ofJson node.toJson) = .ok node := by
        intro name node hmem
        refine ih (hnodes name node hmem) ?_ (Draft.admits_of_mem hinnermost (mem_toMembers hmem))
        -- A node below stands two levels deeper: in the object of the node and in that of its
        -- nodes.
        have hnode := Draft.depth_lt_of_mem (mem_toMembers hmem)
        have hnodes : (ofJson (.object (toMembers below))).depth <
            (ofJson (.object [("pkgMeta", info.toJson), ("missing", .bool missing),
              ("dependencies", .object (toMembers below))])).depth :=
          Draft.depth_lt_of_mem (k := "dependencies") (by simp)
        omega
      rw [toMembers_eq_map]
      exact dictionary_ofJson hnames henter' hread
    rw [shapeWithin, record, ofJson, fields_object_eq_ok_iff]
    refine ⟨rfl, inner, henter, readsMembers_of_fieldsByName (by simp [Field.given]) ?_⟩
    refine ⟨["dependencies", "missing", "pkgMeta"], ?_⟩
    refine (fieldsByName_cons rfl List.not_mem_nil (congrArg (Except.map _) hmeta)).trans ?_
    refine (fieldsByName_cons rfl (by simp) rfl).trans ?_
    exact (fieldsByName_cons rfl (by simp) (congrArg (Except.map _) hbelow)).trans rfl

mutual

theorem hasNoNumber_toJson : ∀ node : Dependency, node.toJson.HasNoNumber
  | mk info _ below =>
    ⟨info.hasNoNumber_toJson, trivial, noMemberHasNumber_toMembers below, trivial⟩

theorem noMemberHasNumber_toMembers : ∀ nodes : List (String × Dependency),
    Json.NoMemberHasNumber (toMembers nodes)
  | [] => trivial
  | (_, node) :: rest => ⟨hasNoNumber_toJson node, noMemberHasNumber_toMembers rest⟩

end

/-- **A description is read back from its text.** The nesting of the text has to be within the limit
of the reader. What was read is in order, so it is the same after it was written and read again. -/
theorem ofText_text_toJson {node : Dependency}
    (hlimit : (Draft.read node.toJson.text).1.nesting ≤ 127) :
    (node.IsSorted → ofText node.toJson.text = .ok node) ∧
      ∀ source, ofText source = .ok node → ofText node.toJson.text = ofText source := by
  have hread := Draft.read_text (hasNoNumber_toJson node)
  rw [hread] at hlimit
  have hback (hnode : node.IsSorted) : ofText node.toJson.text = .ok node := by
    have hadmits : Origin.document.Admits (ofJson node.toJson).nesting := Nat.lt_succ_of_le hlimit
    rw [ofText, Shape.ofText, hread]
    dsimp only
    rw [shape, shapeWithin_toJson hnode (Nat.le_refl _) hadmits]
    rfl
  exact ⟨hback, fun source hsource => (hback (isSorted_of_ofText hsource)).trans hsource.symm⟩

/-- A description with texts that need escapes, with a list of no entry files, with an absent
package and with one that is given by the places of its fields. -/
private def quoting : String :=
  "\x7b\"pkgMeta\": \x7b\"version\": \"1\\\\2\\n\", \"main\": [], "
    ++ "\"name\": \"\\u0001\\ud83d\\ude00\"\x7d, \"size\": null, "
    ++ "\"dependencies\": \x7b\"b\": \x7b\"missing\": true\x7d, "
    ++ "\"a\": [\x7b\"main\": \"a.js\"\x7d]\x7d\x7d"

theorem ofText_text_toJson_quoting :
    ∃ node, ofText quoting = .ok node ∧ (Draft.read node.toJson.text).1.nesting = 4 ∧
      node.IsSorted ∧
      ofText node.toJson.text = .ok node ∧ ofText node.toJson.text = ofText quoting := by
  have hnesting : (ofText quoting).toOption.map (fun node => (ofJson node.toJson).nesting) =
      some 4 := by
    decide +kernel
  cases hnode : ofText quoting with
  | error flaw =>
    rw [hnode] at hnesting
    cases hnesting
  | ok node =>
    rw [hnode] at hnesting
    have hfour : (Draft.read node.toJson.text).1.nesting = 4 := by
      rw [Draft.read_text (hasNoNumber_toJson node)]
      exact Option.some.inj hnesting
    obtain ⟨hback, hagain⟩ := ofText_text_toJson (Nat.le_trans (Nat.le_of_eq hfour) (by decide))
    have hsorted := isSorted_of_ofText hnode
    exact ⟨node, rfl, hfour, hsorted, hback hsorted, (hagain quoting hnode).trans hnode⟩

end Dependency

end Retrofit

import Mathlib.Tactic.SplitIfs
import Retrofit.Proofs.Json.Document
import Retrofit.Proofs.Json.Number

/-!
# Values are read back from their text

**Theorem (`read_text_of_hasIntegers`).** The draft of a text that a value is written as is the
draft of the value, and nothing stands behind it, if all numbers in the value are integers of 64
bits. In particular this holds of values without numbers (`read_text`).

The texts of all parts of a value are read back in front of what may stand behind a value
(`readValue_chars`), by induction on the value. A reader may then go on behind the part. Its fuel is
enough if it is not below the length of what is read.
-/

namespace Retrofit

namespace Json

mutual

/-- No number stands in the value. -/
def HasNoNumber : Json → Prop
  | .number _ => False
  | .array items => NoneHasNumber items
  | .object members => NoMemberHasNumber members
  | _ => True

/-- No number stands in the items. -/
def NoneHasNumber : List Json → Prop
  | [] => True
  | v :: rest => v.HasNoNumber ∧ NoneHasNumber rest

/-- No number stands in the members. -/
def NoMemberHasNumber : List (String × Json) → Prop
  | [] => True
  | (_, v) :: rest => v.HasNoNumber ∧ NoMemberHasNumber rest

end

theorem noneHasNumber_iff {items : List Json} :
    NoneHasNumber items ↔ ∀ v ∈ items, v.HasNoNumber := by
  induction items with
  | nil => simp [NoneHasNumber]
  | cons v rest ih => rw [NoneHasNumber, ih, List.forall_mem_cons]

theorem noMemberHasNumber_iff {members : List (String × Json)} :
    NoMemberHasNumber members ↔ ∀ member ∈ members, member.2.HasNoNumber := by
  induction members with
  | nil => simp [NoMemberHasNumber]
  | cons member rest ih => rw [NoMemberHasNumber, ih, List.forall_mem_cons]

end Json

namespace Draft

/-- The draft itself, its parts aside, is no number but an integer of 64 bits. -/
def isIntegral : Draft → Bool
  | .number (some n) => n.isInteger
  | .number none => false
  | _ => true

/-- All numbers in the draft are integers of 64 bits. -/
def HasIntegers (d : Draft) : Prop :=
  ∀ part ∈ d.parts, part.isIntegral = true

instance (d : Draft) : Decidable d.HasIntegers :=
  inferInstanceAs (Decidable (∀ part ∈ d.parts, part.isIntegral = true))

theorem hasIntegers_array_iff {items : List Draft} {fault : Option Fault} :
    (Draft.array items fault).HasIntegers ↔ ∀ d ∈ items, d.HasIntegers := by
  rw [HasIntegers, forall_parts_array_iff]
  exact and_iff_right rfl

theorem hasIntegers_object_iff {members : List (Option String × Draft)} {fault : Option Fault} :
    (Draft.object members fault).HasIntegers ↔ ∀ k d, (k, d) ∈ members → d.HasIntegers := by
  rw [HasIntegers, forall_parts_object_iff]
  exact and_iff_right rfl

theorem ofItems_eq_map (items : List Json) : ofItems items = items.map ofJson := by
  induction items with
  | nil => rfl
  | cons v rest ih => rw [ofItems, ih, List.map_cons]

theorem hasIntegers_ofJson_array {items : List Json} :
    (ofJson (.array items)).HasIntegers ↔ ∀ v ∈ items, (ofJson v).HasIntegers := by
  rw [ofJson, hasIntegers_array_iff, ofItems_eq_map, List.forall_mem_map]

theorem hasIntegers_ofJson_object {members : List (String × Json)} :
    (ofJson (.object members)).HasIntegers ↔ ∀ member ∈ members, (ofJson member.2).HasIntegers := by
  rw [ofJson, hasIntegers_object_iff, ofMembers_eq_map]
  refine ⟨fun h member hmember => ?_, fun h k d hmem => ?_⟩
  · exact h _ _ (List.mem_map_of_mem (f := fun member => (some member.1, ofJson member.2)) hmember)
  · obtain ⟨member, hmember, heq⟩ := List.mem_map.mp hmem
    cases heq
    exact h member hmember

theorem hasIntegers_ofJson_number {n : Number} (h : (ofJson (.number n)).HasIntegers) :
    n.isInteger = true :=
  h _ (self_mem_parts _)

mutual

/-- The value of a draft has the numbers of the draft. -/
theorem hasIntegers_ofJson_value : ∀ {d : Draft}, d.HasIntegers → (ofJson d.value).HasIntegers
  | .null, h => h
  | .bool _, h => h
  | .number none, h => nomatch h _ (self_mem_parts _)
  | .number (some _), h => h
  | .string none, _ => List.forall_mem_singleton.mpr rfl
  | .string (some _), h => h
  | .broken _, _ => List.forall_mem_singleton.mpr rfl
  | .array _ _, h =>
    hasIntegers_ofJson_array.mpr (hasIntegers_of_mem_itemValues (hasIntegers_array_iff.mp h))
  | .object _ _, h =>
    hasIntegers_ofJson_object.mpr fun _ hmember =>
      hasIntegers_of_mem_memberValues (hasIntegers_object_iff.mp h)
        (Dictionary.mem_of_mem_ofList hmember)

theorem hasIntegers_of_mem_itemValues : ∀ {items : List Draft}, (∀ d ∈ items, d.HasIntegers) →
    ∀ v ∈ itemValues items, (ofJson v).HasIntegers
  | [], _ => nofun
  | d :: rest, h => by
    obtain ⟨hd, hrest⟩ := List.forall_mem_cons.mp h
    exact List.forall_mem_cons.mpr
      ⟨hasIntegers_ofJson_value hd, hasIntegers_of_mem_itemValues hrest⟩

theorem hasIntegers_of_mem_memberValues : ∀ {members : List (Option String × Draft)},
    (∀ k d, (k, d) ∈ members → d.HasIntegers) →
      ∀ {member : String × Json}, member ∈ memberValues members →
    (ofJson member.2).HasIntegers
  | [], _, _, hmember => nomatch hmember
  | (k, d) :: rest, h, member, hmember => by
    rw [memberValues] at hmember
    rcases List.mem_cons.mp hmember with rfl | hmember
    · exact hasIntegers_ofJson_value (h k d (List.mem_cons_self ..))
    · exact hasIntegers_of_mem_memberValues
        (fun k d hmem => h k d (List.mem_cons_of_mem _ hmem)) hmember

end

end Draft

namespace Json

/-- The characters of items, with a comma in front unless they are the `first` of an array. -/
def listedItems (first : Bool) : List Json → List Char
  | [] => []
  | items => (if first then [] else [',']) ++ itemChars items

/-- The characters of members, with a comma in front unless they are the `first` of an object. -/
def listedMembers (first : Bool) : List (String × Json) → List Char
  | [] => []
  | members => (if first then [] else [',']) ++ memberChars members

theorem listedItems_cons (first : Bool) (v : Json) (rest : List Json) :
    listedItems first (v :: rest) =
      (if first then [] else [',']) ++ (chars v ++ listedItems false rest) := by
  cases rest <;> simp [listedItems, itemChars]

theorem listedMembers_cons (first : Bool) (k : String) (v : Json) (rest : List (String × Json)) :
    listedMembers first ((k, v) :: rest) =
      (if first then [] else [',']) ++
        (quoted k ++ ':' :: (chars v ++ listedMembers false rest)) := by
  cases rest <;> simp [listedMembers, memberChars]

theorem chars_array (items : List Json) :
    chars (.array items) = '[' :: (listedItems true items ++ [']']) := by
  cases items <;> simp [chars, listedItems, itemChars]

theorem chars_object (members : List (String × Json)) :
    chars (.object members) = '{' :: (listedMembers true members ++ ['}']) := by
  cases members <;> simp [chars, listedMembers, memberChars]

end Json

namespace Draft

open Json (chars escape quoted hexDigit listedItems listedMembers)

/-! ## Strings -/

theorem hexValue?_hexDigit : ∀ n < 16, hexValue? (hexDigit n) = some n := by
  decide

/-- What is read with a character in front. -/
def addUnit (c : Char) (read : List Unit16 × List Char) : List Unit16 × List Char :=
  (.char c :: read.1, read.2)

theorem readUnits_short {e c : Char} (fuel : Nat) (cs : List Char) (he : e ≠ 'u')
    (hc : shortEscape? e = some c) :
    readUnits (fuel + 1) ('\\' :: e :: cs) = (readUnits fuel cs).map (addUnit c) := by
  cases hread : readUnits fuel cs <;> simp [readUnits, hc, hread, addUnit, Except.map]

theorem readUnits_plain {c : Char} (fuel : Nat) (cs : List Char) (hquote : c ≠ '"')
    (hslash : c ≠ '\\') (hcontrol : ¬ c.toNat < 32) :
    readUnits (fuel + 1) (c :: cs) = (readUnits fuel cs).map (addUnit c) := by
  cases hread : readUnits fuel cs <;>
    simp [readUnits, hquote, hslash, hcontrol, hread, addUnit, Except.map]

/-- A control character is written by its number. -/
theorem readUnits_control {c : Char} (fuel : Nat) (cs : List Char) (hcontrol : c.toNat < 32) :
    readUnits (fuel + 1)
        ('\\' :: 'u' :: '0' :: '0' :: hexDigit (c.toNat / 16) :: hexDigit (c.toNat % 16) :: cs) =
      (readUnits fuel cs).map (addUnit c) := by
  have hzero : hexValue? '0' = some 0 := rfl
  have hhigh := hexValue?_hexDigit (c.toNat / 16) (by omega)
  have hlow := hexValue?_hexDigit (c.toNat % 16) (by omega)
  have hhex : readHex ('0' :: '0' :: hexDigit (c.toNat / 16) :: hexDigit (c.toNat % 16) :: cs) =
      .ok (c.toNat, cs) := by
    have hvalue : ((0 * 16 + 0) * 16 + c.toNat / 16) * 16 + c.toNat % 16 = c.toNat := by omega
    simp only [readHex, hzero, hhigh, hlow, hvalue]
  have hunit : Unit16.ofNat c.toNat = .char c := by
    rw [Unit16.ofNat, if_neg (by omega), Char.ofNat_toNat]
  cases hread : readUnits fuel cs <;>
    simp [readUnits, hhex, hunit, hread, ok_bind, error_bind, pure_eq_ok, addUnit, Except.map]

/-- A character is read back from the form in which it is written. -/
theorem readUnits_escape (fuel : Nat) (c : Char) (cs : List Char) :
    readUnits (fuel + 1) (escape c ++ cs) = (readUnits fuel cs).map (addUnit c) := by
  have hchar {n : Nat} (h : c.toNat = n) : c = Char.ofNat n := by rw [← h, Char.ofNat_toNat]
  unfold escape
  split_ifs with hquote hslash hnewline hreturn htab hback hfeed hcontrol
  · subst hquote
    exact readUnits_short fuel cs (by decide) rfl
  · subst hslash
    exact readUnits_short fuel cs (by decide) rfl
  · subst hnewline
    exact readUnits_short fuel cs (by decide) rfl
  · subst hreturn
    exact readUnits_short fuel cs (by decide) rfl
  · subst htab
    exact readUnits_short fuel cs (by decide) rfl
  · rw [hchar hback]
    exact readUnits_short fuel cs (by decide) rfl
  · rw [hchar hfeed]
    exact readUnits_short fuel cs (by decide) rfl
  · exact readUnits_control fuel cs hcontrol
  · exact readUnits_plain fuel cs hquote hslash hcontrol

theorem readUnits_flatMap_escape {fuel : Nat} (text rest : List Char) (hfuel : text.length < fuel) :
    readUnits fuel (text.flatMap escape ++ '"' :: rest) = .ok (text.map .char, rest) := by
  induction text generalizing fuel with
  | nil =>
    obtain ⟨fuel, rfl⟩ := Nat.exists_eq_add_of_lt hfuel
    simp [readUnits]
  | cons c text ih =>
    obtain ⟨fuel, rfl⟩ := Nat.exists_eq_add_one_of_ne_zero (Nat.ne_zero_of_lt hfuel)
    rw [List.flatMap_cons, List.append_assoc, readUnits_escape,
      ih (Nat.lt_of_succ_lt_succ hfuel)]
    rfl

theorem pairUp?_map_char (text : List Char) : pairUp? (text.map .char) = some text := by
  induction text with
  | nil => rfl
  | cons c text ih => simp [pairUp?, ih]

theorem length_le_flatMap_escape (text : List Char) :
    text.length ≤ (text.flatMap escape).length := by
  induction text with
  | nil => exact Nat.le_refl _
  | cons c text ih =>
    have hc : 1 ≤ (escape c).length := by
      unfold escape
      split_ifs <;> simp
    rw [List.flatMap_cons, List.length_append, List.length_cons]
    omega

/-- A text is read back behind its opening quote. -/
theorem readString_quoted (text : String) (rest : List Char) :
    readString (text.toList.flatMap escape ++ '"' :: rest) = .ok (some text, rest) := by
  have hfuel : text.toList.length <
      (text.toList.flatMap escape ++ '"' :: rest).length + 1 := by
    have hle := length_le_flatMap_escape text.toList
    rw [List.length_append]
    omega
  rw [readString, readUnits_flatMap_escape text.toList rest hfuel, ok_bind]
  dsimp only
  rw [pairUp?_map_char, Option.map_some, String.ofList_toList]
  rfl

/-! ## Values, items and members -/

/-- The text begins neither with a blank nor with the end of an array. -/
def OpensValue (cs : List Char) : Prop :=
  ∃ c rest, cs = c :: rest ∧ c ∉ [' ', '\n', '\t', '\r', ']']

theorem OpensValue.append {cs : List Char} (h : OpensValue cs) (rest : List Char) :
    OpensValue (cs ++ rest) := by
  obtain ⟨c, others, rfl, hc⟩ := h
  exact ⟨c, others ++ rest, rfl, hc⟩

theorem OpensValue.one_le_length {cs : List Char} (h : OpensValue cs) : 1 ≤ cs.length := by
  obtain ⟨c, others, rfl, -⟩ := h
  exact Nat.le_add_left ..

theorem opensValue_chars : ∀ {v : Json}, (ofJson v).HasIntegers → OpensValue (chars v)
  | .null, _ => ⟨'n', "ull".toList, rfl, by decide⟩
  | .bool true, _ => ⟨'t', "rue".toList, rfl, by decide⟩
  | .bool false, _ => ⟨'f', "alse".toList, rfl, by decide⟩
  | .number n, h => by
    obtain ⟨c, others, htext, hc⟩ := exists_text_cons (hasIntegers_ofJson_number h)
    refine ⟨c, others, htext, fun hmem => ?_⟩
    simp only [List.mem_cons, List.not_mem_nil, or_false] at hmem
    obtain rfl | rfl | rfl | rfl | rfl := hmem <;> revert hc <;> decide
  | .string s, _ => ⟨'"', s.toList.flatMap escape ++ ['"'], by rw [chars, quoted], by decide⟩
  | .array items, _ => ⟨'[', listedItems true items ++ [']'], Json.chars_array items, by decide⟩
  | .object members, _ =>
    ⟨'{', listedMembers true members ++ ['}'], Json.chars_object members, by decide⟩

theorem skipBlanks_of_opensValue {cs : List Char} (h : OpensValue cs) : skipBlanks cs = cs := by
  obtain ⟨c, others, rfl, hc⟩ := h
  rw [skipBlanks, if_neg]
  intro hblank
  rcases hblank with rfl | rfl | rfl | rfl <;> exact hc (by decide)

theorem readItems_close (fuel : Nat) (first : Bool) (rest : List Char) :
    readItems (fuel + 1) first (']' :: rest) = ([], none, .ok rest) := by
  simp [readItems, skipBlanks]

/-- An item is read, and then those behind it. -/
theorem readItems_item {fuel : Nat} {first : Bool} {cs behind rest : List Char} {d : Draft}
    {items : List Draft} (hopens : OpensValue cs) (hitem : readValue fuel cs = (d, .ok behind))
    (hitems : readItems fuel false behind = (items, none, .ok rest)) :
    readItems (fuel + 1) first ((if first then [] else [',']) ++ cs) =
      (d :: items, none, .ok rest) := by
  have hskip := skipBlanks_of_opensValue hopens
  obtain ⟨c, others, rfl, hc⟩ := hopens
  have hclose : c ≠ ']' := fun h => hc (by simp [h])
  have hcomma : skipBlanks (',' :: c :: others) = ',' :: c :: others := rfl
  cases first <;> simp [readItems, hskip, hcomma, hclose, hitem, hitems]

theorem readMembers_close (fuel : Nat) (first : Bool) (rest : List Char) :
    readMembers (fuel + 1) first ('}' :: rest) = ([], none, .ok rest) := by
  simp [readMembers, skipBlanks]

/-- A member is read, and then those behind it. -/
theorem readMembers_member {fuel : Nat} {first : Bool} {cs behind rest : List Char} {d : Draft}
    {members : List (Option String × Draft)} (k : String)
    (hvalue : readValue fuel cs = (d, .ok behind))
    (hmembers : readMembers fuel false behind = (members, none, .ok rest)) :
    readMembers (fuel + 1) first ((if first then [] else [',']) ++ (quoted k ++ ':' :: cs)) =
      ((some k, d) :: members, none, .ok rest) := by
  have hquoted : quoted k ++ ':' :: cs = '"' :: (k.toList.flatMap escape ++ '"' :: ':' :: cs) := by
    simp [quoted]
  have hstring := readString_quoted k (':' :: cs)
  rw [hquoted]
  cases first <;> simp [readMembers, skipBlanks, hstring, hvalue, hmembers]

/-- Behind an item stands a comma or the bracket of the array. -/
theorem endsValue_listedItems (items : List Json) (rest : List Char) :
    EndsValue (listedItems false items ++ ']' :: rest) := by
  cases items with
  | nil => exact endsValue_cons (by decide) rest
  | cons v items =>
    rw [Json.listedItems_cons]
    exact endsValue_cons (by decide) _

/-- Behind a member stands a comma or the bracket of the object. -/
theorem endsValue_listedMembers (members : List (String × Json)) (rest : List Char) :
    EndsValue (listedMembers false members ++ '}' :: rest) := by
  cases members with
  | nil => exact endsValue_cons (by decide) rest
  | cons member members =>
    rw [Json.listedMembers_cons]
    exact endsValue_cons (by decide) _

mutual

/-- A value is read back in front of what may stand behind it. -/
theorem readValue_chars : ∀ {v : Json}, (ofJson v).HasIntegers → ∀ (fuel : Nat) {rest : List Char},
    EndsValue rest → (chars v).length ≤ fuel →
      readValue fuel (chars v ++ rest) = (ofJson v, .ok rest)
  | v, hv, 0, rest, _, hfuel => by
    obtain ⟨c, others, hchars, -⟩ := opensValue_chars hv
    simp [hchars] at hfuel
  | .null, _, fuel + 1, rest, _, _ => by
    simp [readValue, chars, skipBlanks, readLiteral, readWord, ofJson]
  | .bool true, _, fuel + 1, rest, _, _ => by
    simp [readValue, chars, skipBlanks, readLiteral, readWord, ofJson]
  | .bool false, _, fuel + 1, rest, _, _ => by
    simp [readValue, chars, skipBlanks, readLiteral, readWord, ofJson]
  | .number n, hv, fuel + 1, rest, hrest, _ => by
    rw [chars, readValue_number (hasIntegers_ofJson_number hv) fuel hrest, ofJson]
  | .string s, _, fuel + 1, rest, _, _ => by
    have hstring := readString_quoted s rest
    simp [readValue, chars, quoted, skipBlanks, hstring, ofJson]
  | .array items, hv, fuel + 1, rest, _, hfuel => by
    rw [hasIntegers_ofJson_array] at hv
    rw [Json.chars_array] at hfuel ⊢
    have hitems := readItems_listedItems hv true fuel rest (by simpa using hfuel)
    simp [readValue, skipBlanks, hitems, ofJson]
  | .object members, hv, fuel + 1, rest, _, hfuel => by
    rw [hasIntegers_ofJson_object] at hv
    rw [Json.chars_object] at hfuel ⊢
    have hmembers := readMembers_listedMembers hv true fuel rest (by simpa using hfuel)
    simp [readValue, skipBlanks, hmembers, ofJson]

theorem readItems_listedItems : ∀ {items : List Json}, (∀ v ∈ items, (ofJson v).HasIntegers) →
    ∀ (first : Bool) (fuel : Nat) (rest : List Char), (listedItems first items).length + 1 ≤ fuel →
    readItems fuel first (listedItems first items ++ ']' :: rest) = (ofItems items, none, .ok rest)
  | _, _, _, 0, _, hfuel => by simp at hfuel
  | [], _, first, fuel + 1, rest, _ => by
    rw [listedItems, List.nil_append, readItems_close, ofItems]
  | v :: items, hitems, first, fuel + 1, rest, hfuel => by
    obtain ⟨hv, hitems⟩ := List.forall_mem_cons.mp hitems
    have hopens := opensValue_chars hv
    have hlength : 1 ≤ (chars v).length := hopens.one_le_length
    rw [Json.listedItems_cons] at hfuel ⊢
    simp only [List.length_append] at hfuel
    have hitem := readValue_chars hv fuel (endsValue_listedItems items rest) (by omega)
    have hbehind := readItems_listedItems hitems false fuel rest (by omega)
    rw [List.append_assoc, List.append_assoc, ofItems]
    exact readItems_item (hopens.append _) hitem hbehind

theorem readMembers_listedMembers : ∀ {members : List (String × Json)},
    (∀ member ∈ members, (ofJson member.2).HasIntegers) →
    ∀ (first : Bool) (fuel : Nat) (rest : List Char),
      (listedMembers first members).length + 1 ≤ fuel →
    readMembers fuel first (listedMembers first members ++ '}' :: rest) =
      (ofMembers members, none, .ok rest)
  | _, _, _, 0, _, hfuel => by simp at hfuel
  | [], _, first, fuel + 1, rest, _ => by
    rw [listedMembers, List.nil_append, readMembers_close, ofMembers]
  | (k, v) :: members, hmembers, first, fuel + 1, rest, hfuel => by
    obtain ⟨hv, hmembers⟩ := List.forall_mem_cons.mp hmembers
    rw [Json.listedMembers_cons] at hfuel ⊢
    simp only [List.length_append, List.length_cons] at hfuel
    have hvalue :=
      readValue_chars (v := v) hv fuel (endsValue_listedMembers members rest) (by omega)
    have hbehind := readMembers_listedMembers hmembers false fuel rest (by omega)
    rw [List.append_assoc, List.append_assoc, List.cons_append, List.append_assoc, ofMembers]
    exact readMembers_member k hvalue hbehind

end

/-- **A value is read back from its text**, if its numbers are integers. -/
theorem read_text_of_hasIntegers {v : Json} (h : (ofJson v).HasIntegers) :
    read v.text = (ofJson v, none) := by
  have hends : EndsValue [] := nofun
  have hvalue := readValue_chars h (2 * (chars v).length + 2) hends (by omega)
  rw [List.append_nil] at hvalue
  simp [read, Json.text, hvalue, skipBlanks]

mutual

theorem hasIntegers_of_hasNoNumber : ∀ {v : Json}, v.HasNoNumber → (ofJson v).HasIntegers
  | .null, _ => by decide
  | .bool _, _ => List.forall_mem_singleton.mpr rfl
  | .string _, _ => List.forall_mem_singleton.mpr rfl
  | .array _, h => hasIntegers_ofJson_array.mpr (hasIntegers_of_noneHasNumber h)
  | .object _, h => hasIntegers_ofJson_object.mpr (hasIntegers_of_noMemberHasNumber h)

theorem hasIntegers_of_noneHasNumber : ∀ {items : List Json}, Json.NoneHasNumber items →
    ∀ v ∈ items, (ofJson v).HasIntegers
  | [], _ => nofun
  | _ :: _, ⟨hv, hrest⟩ =>
    List.forall_mem_cons.mpr ⟨hasIntegers_of_hasNoNumber hv, hasIntegers_of_noneHasNumber hrest⟩

theorem hasIntegers_of_noMemberHasNumber : ∀ {members : List (String × Json)},
    Json.NoMemberHasNumber members → ∀ member ∈ members, (ofJson member.2).HasIntegers
  | [], _ => nofun
  | (_, _) :: _, ⟨hv, hrest⟩ =>
    List.forall_mem_cons.mpr ⟨hasIntegers_of_hasNoNumber hv, hasIntegers_of_noMemberHasNumber hrest⟩

end

/-- A value without numbers is read back from its text. -/
theorem read_text {v : Json} (h : v.HasNoNumber) : read v.text = (ofJson v, none) :=
  read_text_of_hasIntegers (hasIntegers_of_hasNoNumber h)

end Draft

end Retrofit

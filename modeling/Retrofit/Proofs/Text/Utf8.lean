import Mathlib.Tactic.SplitIfs
import Retrofit.Text.Utf8

/-!
# UTF-8 round trip

**Theorem (`decode?_encode`).** A text is what its bytes encode. Decoding with replacements agrees
with strict decoding where that succeeds (`decode_eq_getD`).

The characters of a text are decoded one after the other (`units_encodeChar_append`). There is one
case for each number of bytes; in each the first byte tells the number, the second is one that may
follow it, and the digits of the character's number in base 64 are put together again.
-/

namespace Retrofit.Text

variable {a b c d : UInt8} {rest : List UInt8} {n v : Nat}

/-! ## Characters by their number of bytes -/

theorem units_one (ha : a < 0x80) :
    units (a :: rest) = some (Char.ofNat a.toNat) :: units rest := by
  rw [units, if_pos ha]

theorem units_two (ha : ¬ a < 0x80) (hlen : tailLength? a = some 1) (hb : mayFollow a b) :
    units (a :: b :: rest) = some (assemble a [b]) :: units rest := by
  rw [units.eq_def]
  simp only [if_neg ha, hlen, hb, Bool.not_true, Bool.false_eq_true, if_false, if_true]

theorem units_three (ha : ¬ a < 0x80) (hlen : tailLength? a = some 2) (hb : mayFollow a b)
    (hc : isTail c) : units (a :: b :: c :: rest) = some (assemble a [b, c]) :: units rest := by
  rw [units.eq_def]
  simp [if_neg ha, hlen, hb, hc]

theorem units_four (ha : ¬ a < 0x80) (hlen : tailLength? a = some 3) (hb : mayFollow a b)
    (hc : isTail c) (hd : isTail d) :
    units (a :: b :: c :: d :: rest) = some (assemble a [b, c, d]) :: units rest := by
  rw [units.eq_def]
  simp [if_neg ha, hlen, hb, hc, hd]

/-! ## The bytes of a character -/

theorem ofNat_lt_iff (hn : n < 256) {k : UInt8} : UInt8.ofNat n < k ↔ n < k.toNat := by
  rw [UInt8.lt_iff_toNat_lt, UInt8.toNat_ofNat_of_lt' hn]

theorem le_ofNat_iff (hn : n < 256) {k : UInt8} : k ≤ UInt8.ofNat n ↔ k.toNat ≤ n := by
  rw [UInt8.le_iff_toNat_le, UInt8.toNat_ofNat_of_lt' hn]

theorem ofNat_le_iff (hn : n < 256) {k : UInt8} : UInt8.ofNat n ≤ k ↔ n ≤ k.toNat := by
  rw [UInt8.le_iff_toNat_le, UInt8.toNat_ofNat_of_lt' hn]

theorem ofNat_eq_iff (hn : n < 256) {k : UInt8} : UInt8.ofNat n = k ↔ n = k.toNat := by
  rw [← UInt8.toNat_inj, UInt8.toNat_ofNat_of_lt' hn]

theorem tailLength?_ofNat (hn : n < 256) :
    tailLength? (UInt8.ofNat n) =
      if 0xC2 ≤ n ∧ n ≤ 0xDF then some 1 else if 0xE0 ≤ n ∧ n ≤ 0xEF then some 2
      else if 0xF0 ≤ n ∧ n ≤ 0xF4 then some 3 else none := by
  simp [tailLength?, le_ofNat_iff hn, ofNat_le_iff hn]

theorem isTail_ofNat (hn : n < 256) : isTail (UInt8.ofNat n) ↔ 0x80 ≤ n ∧ n ≤ 0xBF := by
  simp [isTail, le_ofNat_iff hn, ofNat_le_iff hn]

theorem mayFollow_ofNat {m : Nat} (hm : m < 256) (hn : n < 256) :
    mayFollow (UInt8.ofNat m) (UInt8.ofNat n) ↔
      (if m = 0xE0 then 0xA0 else if m = 0xF0 then 0x90 else 0x80) ≤ n ∧
        n ≤ if m = 0xED then 0x9F else if m = 0xF4 then 0x8F else 0xBF := by
  unfold mayFollow
  simp only [ofNat_eq_iff hm]
  split_ifs <;> simp_all [isTail, le_ofNat_iff hn, ofNat_le_iff hn]

theorem isTail_digit (n : Nat) : isTail (UInt8.ofNat (n % 64 + 0x80)) :=
  (isTail_ofNat (by omega)).mpr (by omega)

theorem toNat_digit (n : Nat) : (UInt8.ofNat (n % 64 + 0x80)).toNat % 64 = n % 64 := by
  rw [UInt8.toNat_ofNat_of_lt' (show n % 64 + 0x80 < 256 by omega)]
  omega

theorem units_two_ofNat (h1 : 0x7F < v) (h2 : v ≤ 0x7FF) :
    units (UInt8.ofNat (v / 64 % 32 + 0xC0) :: UInt8.ofNat (v % 64 + 0x80) :: rest) =
      some (Char.ofNat v) :: units rest := by
  have ha : v / 64 % 32 + 0xC0 < 256 := by omega
  have hchar : assemble (UInt8.ofNat (v / 64 % 32 + 0xC0)) [UInt8.ofNat (v % 64 + 0x80)] =
      Char.ofNat v := by
    simp only [assemble, List.length_singleton, if_true, List.foldl_cons, List.foldl_nil,
      toNat_digit, UInt8.toNat_ofNat_of_lt' ha]
    congr 1
    omega
  rw [units_two, hchar]
  · rw [ofNat_lt_iff ha]
    simp
  · rw [tailLength?_ofNat ha, if_pos (by omega)]
  · rw [mayFollow_ofNat ha (by omega)]
    split_ifs <;> omega

theorem units_three_ofNat (h1 : 0x7FF < v) (h2 : v ≤ 0xFFFF)
    (hsurrogate : ¬ (0xD800 ≤ v ∧ v ≤ 0xDFFF)) :
    units (UInt8.ofNat (v / 4096 % 16 + 0xE0) :: UInt8.ofNat (v / 64 % 64 + 0x80) ::
      UInt8.ofNat (v % 64 + 0x80) :: rest) = some (Char.ofNat v) :: units rest := by
  have ha : v / 4096 % 16 + 0xE0 < 256 := by omega
  have hchar : assemble (UInt8.ofNat (v / 4096 % 16 + 0xE0))
      [UInt8.ofNat (v / 64 % 64 + 0x80), UInt8.ofNat (v % 64 + 0x80)] = Char.ofNat v := by
    simp only [assemble, List.length_cons, List.length_nil, List.foldl_cons, List.foldl_nil,
      toNat_digit, UInt8.toNat_ofNat_of_lt' ha]
    congr 1
    simp
    omega
  rw [units_three _ _ _ (isTail_digit v), hchar]
  · rw [ofNat_lt_iff ha]
    simp
  · rw [tailLength?_ofNat ha, if_neg (by omega), if_pos (by omega)]
  · rw [mayFollow_ofNat ha (by omega)]
    split_ifs <;> omega

theorem units_four_ofNat (h1 : 0xFFFF < v) (h2 : v < 0x110000) :
    units (UInt8.ofNat (v / 262144 % 8 + 0xF0) :: UInt8.ofNat (v / 4096 % 64 + 0x80) ::
      UInt8.ofNat (v / 64 % 64 + 0x80) :: UInt8.ofNat (v % 64 + 0x80) :: rest) =
      some (Char.ofNat v) :: units rest := by
  have ha : v / 262144 % 8 + 0xF0 < 256 := by omega
  have hchar : assemble (UInt8.ofNat (v / 262144 % 8 + 0xF0))
      [UInt8.ofNat (v / 4096 % 64 + 0x80), UInt8.ofNat (v / 64 % 64 + 0x80),
        UInt8.ofNat (v % 64 + 0x80)] = Char.ofNat v := by
    simp only [assemble, List.length_cons, List.length_nil, List.foldl_cons, List.foldl_nil,
      toNat_digit, UInt8.toNat_ofNat_of_lt' ha]
    congr 1
    simp
    omega
  rw [units_four _ _ _ (isTail_digit (v / 64)) (isTail_digit v), hchar]
  · rw [ofNat_lt_iff ha]
    simp
  · rw [tailLength?_ofNat ha, if_neg (by omega), if_neg (by omega), if_pos (by omega)]
  · rw [mayFollow_ofNat ha (by omega)]
    split_ifs <;> omega

/-! ## The round trip -/

/-- The bytes of a character are decoded to the character. -/
theorem units_encodeChar_append (c : Char) (rest : List UInt8) :
    units (String.utf8EncodeChar c ++ rest) = some c :: units rest := by
  have hvalid : c.val.toNat < 0xD800 ∨ 0xDFFF < c.val.toNat ∧ c.val.toNat < 0x110000 := c.valid
  have hchar : Char.ofNat c.val.toNat = c := Char.ofNat_toNat c
  simp only [String.utf8EncodeChar]
  split_ifs with h1 h2 h3 <;> simp only [List.cons_append, List.nil_append]
  · have hv : c.val.toNat < 256 := by omega
    rw [units_one, UInt8.toNat_ofNat_of_lt' hv, hchar]
    rw [ofNat_lt_iff hv]
    exact Nat.lt_succ_of_le h1
  · rw [units_two_ofNat (by omega) h2, hchar]
  · rw [units_three_ofNat (by omega) h3 (by omega), hchar]
  · rw [units_four_ofNat (by omega) (by omega), hchar]

theorem units_encode (text : String) : units (encode text) = text.toList.map some := by
  unfold encode
  induction text.toList with
  | nil => rfl
  | cons c cs ih => rw [List.flatMap_cons, units_encodeChar_append, ih, List.map_cons]

theorem mapM_some (cs : List Char) : (cs.map some).mapM id = some cs := by
  induction cs with
  | nil => rfl
  | cons c cs ih => simp [List.mapM_cons, ih]

/-- Reading what was written gives the text back. -/
theorem decode?_encode (text : String) : decode? (encode text) = some text := by
  rw [decode?, units_encode, mapM_some, Option.map_some, String.ofList_toList]

theorem eq_map_some_of_mapM {us : List (Option Char)} {cs : List Char} (h : us.mapM id = some cs) :
    us = cs.map some := by
  induction us generalizing cs with
  | nil => simp_all
  | cons u us ih =>
    rw [List.mapM_cons] at h
    simp only [Option.bind_eq_bind, Option.bind_eq_some_iff, Option.pure_def,
      Option.some.injEq] at h
    obtain ⟨c, hc, rest, hrest, rfl⟩ := h
    rw [ih hrest, List.map_cons]
    exact congrArg (· :: rest.map some) hc

/-- Bytes that are UTF-8 are decoded strictly; only in others characters are replaced. -/
theorem decode_eq_getD (bytes : List UInt8) :
    decode bytes = (decode? bytes).getD (decode bytes) := by
  cases htext : decode? bytes with
  | none => rfl
  | some text =>
    obtain ⟨cs, hcs, rfl⟩ := Option.map_eq_some_iff.mp htext
    have hkept : (cs.map some).map (·.getD '\ufffd') = cs := by
      rw [List.map_map]
      exact List.map_id cs
    rw [decode, eq_map_some_of_mapM hcs, hkept]
    rfl

theorem encode_inj {text other : String} : encode text = encode other ↔ text = other := by
  constructor
  · intro h
    have hdecode := decode?_encode text
    rw [h, decode?_encode] at hdecode
    exact (Option.some.inj hdecode).symm
  · exact congrArg encode

end Retrofit.Text

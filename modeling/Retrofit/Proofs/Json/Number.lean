import Mathlib.Tactic.SplitIfs
import Retrofit.Json.Draft
import Retrofit.Proofs.Except
import Retrofit.Proofs.Version.Grammar

/-!
# Integers are read back from their text

**Theorem (`readValue_number`).** An integer of 64 bits is read back from its text, in front of
anything that may stand behind a value. A number in a text has no end of its own, so what stands
behind it counts: the commas and brackets of arrays and objects belong to no number (`EndsValue`).

Of the digits as many count as fit in 64 bits. All of them do if the whole number fits, since the
number that the first of them make up is not above it (`le_ofDigitChars`).
-/

namespace Retrofit

/-- The number is whole and has 64 bits, signed or not: it is not below -2^63, and below 2^64. -/
def Number.isInteger : Number → Bool
  | .whole n => -9223372036854775808 ≤ n && n < 18446744073709551616
  | .real _ => false

namespace Draft

open Version (Numeral)

variable {cs rest : List Char} {c : Char} {n value : Nat}

/-- What may stand behind a value: nothing, or a comma or bracket. -/
def EndsValue (rest : List Char) : Prop :=
  ∀ c ∈ rest.head?, c ∈ [',', ']', '}']

theorem endsValue_cons (h : c ∈ [',', ']', '}']) (rest : List Char) : EndsValue (c :: rest) := by
  intro first hfirst
  rw [← Option.mem_some.mp hfirst]
  exact h

/-! ## Digits -/

theorem spanDigits_append (hdigits : ∀ c ∈ cs, c.isDigit = true) (hrest : EndsValue rest) :
    spanDigits (cs ++ rest) = (cs, rest) := by
  have hnone : rest.takeWhile Char.isDigit = [] ∧ rest.dropWhile Char.isDigit = rest := by
    cases rest with
    | nil => exact ⟨rfl, rfl⟩
    | cons c rest =>
      have hc : c.isDigit = false := by
        have hmem := hrest c rfl
        simp only [List.mem_cons, List.not_mem_nil, or_false] at hmem
        obtain rfl | rfl | rfl := hmem <;> rfl
      simp [hc]
  rw [spanDigits, List.takeWhile_append_of_pos hdigits,
    List.dropWhile_append_of_pos hdigits, hnone.1, hnone.2, List.append_nil]

theorem readDigits_append (h : Numeral cs n) (hrest : EndsValue rest) :
    readDigits (cs ++ rest) = .ok (cs, rest) := by
  obtain ⟨c, others, rfl⟩ := List.exists_cons_of_ne_nil h.ne_nil
  rw [readDigits, spanDigits_append h.digits hrest]

/-- Further digits do not make a number smaller. -/
theorem le_ofDigitChars (cs : List Char) (value : Nat) : value ≤ Nat.ofDigitChars 10 cs value := by
  induction cs generalizing value with
  | nil => exact Nat.le_refl value
  | cons c rest ih =>
    rw [Nat.ofDigitChars_cons]
    exact Nat.le_trans (by omega) (ih _)

/-- No digit is dropped of a number that fits. -/
theorem foldl_significand (h : Nat.ofDigitChars 10 cs value < UInt64.size) :
    cs.foldl (fun (n, dropped) c =>
      let next := n * 10 + (c.toNat - '0'.toNat)
      if dropped = 0 ∧ next < UInt64.size then (next, 0) else (n, dropped + 1)) (value, 0) =
      (Nat.ofDigitChars 10 cs value, 0) := by
  induction cs generalizing value with
  | nil => rfl
  | cons c rest ih =>
    rw [Nat.ofDigitChars_cons, Nat.mul_comm 10] at h ⊢
    have hnext := Nat.lt_of_le_of_lt (le_ofDigitChars rest _) h
    rw [List.foldl_cons, ← ih h]
    simp only [true_and, if_pos hnext]

theorem significand_numeral (h : Numeral cs n) (hfits : n < UInt64.size) :
    significand cs = (n, 0) := by
  rw [← h.value] at hfits ⊢
  exact foldl_significand hfits

/-! ## Numbers -/

/-- The digits of an integer with the sign in front. -/
def signed (negative : Bool) (digits : List Char) : List Char :=
  if negative then '-' :: digits else digits

/-- Digits with a sign are read up to where the value ends. -/
theorem readNumber_signed (negative : Bool) (h : Numeral cs n) (hrest : EndsValue rest) :
    readNumber (signed negative cs ++ rest) = .ok (⟨negative, cs, [], none⟩, rest) := by
  have hdigits := readDigits_append h hrest
  have hsign : ((signed negative cs ++ rest).head? == some '-') = negative ∧
      (if negative then (signed negative cs ++ rest).drop 1 else signed negative cs ++ rest) =
        cs ++ rest := by
    cases negative with
    | true => exact ⟨rfl, rfl⟩
    | false =>
      obtain ⟨c, others, rfl⟩ := List.exists_cons_of_ne_nil h.ne_nil
      refine ⟨?_, rfl⟩
      rw [beq_eq_false_iff_ne]
      intro hc
      have hdigit := h.digits c (List.mem_cons_self ..)
      rw [Option.some.inj hc] at hdigit
      cases hdigit
  have hzero : ¬ (cs.head? = some '0' ∧ cs ≠ ['0']) :=
    fun hlead => hlead.2 (h.noLeadingZero hlead.1)
  simp only [readNumber, hsign.1, hsign.2, hdigits, ok_bind, if_neg hzero]
  cases rest with
  | nil => rfl
  | cons c rest =>
    have hmem := hrest c rfl
    simp only [List.mem_cons, List.not_mem_nil, or_false] at hmem
    obtain rfl | rfl | rfl := hmem <;> rfl

/-- The value of digits with a sign, if it has 64 bits. Zero has no sign. -/
theorem value?_signed_nat (h : Numeral cs n) (hfits : n < UInt64.size) :
    NumberParts.value? ⟨false, cs, [], none⟩ = some (.whole n) := by
  simp [NumberParts.value?, significand_numeral h hfits]

theorem value?_signed_neg (h : Numeral cs n) (hne : n ≠ 0) (hfits : n ≤ 9223372036854775808) :
    NumberParts.value? ⟨true, cs, [], none⟩ = some (.whole (-n)) := by
  have hsize : n < UInt64.size := Nat.lt_of_le_of_lt hfits (by decide)
  simpa [NumberParts.value?, significand_numeral h hsize, hne] using hfits

/-- The text of an integer is a numeral with a sign, and has its value. -/
theorem exists_signed {number : Number} (h : number.isInteger = true) :
    ∃ negative cs n, number.text.toList = signed negative cs ∧ Numeral cs n ∧
      NumberParts.value? ⟨negative, cs, [], none⟩ = some number := by
  cases number with
  | real bits => cases h
  | whole i =>
    simp only [Number.isInteger, Bool.and_eq_true, decide_eq_true_eq] at h
    cases i with
    | ofNat n =>
      have hnumeral := Version.numeral_toString n
      refine ⟨false, (toString n).toList, n, rfl, hnumeral, value?_signed_nat hnumeral ?_⟩
      have hlt : (n : Int) < 18446744073709551616 := h.2
      have hsize : UInt64.size = 18446744073709551616 := rfl
      omega
    | negSucc n =>
      have hnumeral := Version.numeral_toString (n + 1)
      refine ⟨true, (toString (n + 1)).toList, n + 1, ?_, hnumeral,
        value?_signed_neg hnumeral (Nat.succ_ne_zero n) ?_⟩
      · show ("-" ++ toString (n + 1)).toList = _
        rw [String.toList_append]
        rfl
      · omega

/-- An integer is read back in front of what may stand behind it. -/
theorem readNumber_text {number : Number} (h : number.isInteger = true) (hrest : EndsValue rest) :
    ∃ parts, readNumber (number.text.toList ++ rest) = .ok (parts, rest) ∧
      parts.value? = some number := by
  obtain ⟨negative, cs, n, htext, hnumeral, hvalue⟩ := exists_signed h
  exact ⟨⟨negative, cs, [], none⟩, htext ▸ readNumber_signed negative hnumeral hrest, hvalue⟩

/-- The text of an integer begins with its sign or a digit. -/
theorem exists_text_cons {number : Number} (h : number.isInteger = true) :
    ∃ c others, number.text.toList = c :: others ∧ (c = '-' ∨ c.isDigit = true) := by
  obtain ⟨negative, cs, n, htext, hnumeral, -⟩ := exists_signed h
  obtain ⟨c, others, rfl⟩ := List.exists_cons_of_ne_nil hnumeral.ne_nil
  cases negative with
  | true => exact ⟨'-', c :: others, htext, .inl rfl⟩
  | false => exact ⟨c, others, htext, .inr (hnumeral.digits c (List.mem_cons_self ..))⟩

/-- A sign or a digit begins a number. -/
theorem readValue_of_readNumber {parts : NumberParts} (h : c = '-' ∨ c.isDigit = true) (fuel : Nat)
    (hread : readNumber (c :: cs) = .ok (parts, rest)) :
    readValue (fuel + 1) (c :: cs) = (.number parts.value?, .ok rest) := by
  have hnot : c ∉ [' ', '\n', '\t', '\r', '[', '{', '"', 'n', 't', 'f'] := by
    intro hmem
    simp only [List.mem_cons, List.not_mem_nil, or_false] at hmem
    obtain rfl | rfl | rfl | rfl | rfl | rfl | rfl | rfl | rfl | rfl := hmem <;> revert h <;> decide
  simp only [List.mem_cons, List.not_mem_nil, or_false, not_or] at hnot
  obtain ⟨hblank, hline, htab, hreturn, harray, hobject, hquote, hn, ht, hf⟩ := hnot
  have hskip : skipBlanks (c :: cs) = c :: cs := by
    rw [skipBlanks, if_neg (by simp [hblank, hline, htab, hreturn])]
  rw [readValue, hskip]
  split <;> rename_i heq <;> cases heq
  · exact absurd rfl harray
  · exact absurd rfl hobject
  · exact absurd rfl hquote
  · rw [if_neg hn, if_neg ht, if_neg hf, if_pos h, hread]

/-- **An integer is read back from its text**, in front of what may stand behind a value. -/
theorem readValue_number {number : Number} (h : number.isInteger = true) (fuel : Nat)
    (hrest : EndsValue rest) :
    readValue (fuel + 1) (number.text.toList ++ rest) = (.number (some number), .ok rest) := by
  obtain ⟨parts, hread, hvalue⟩ := readNumber_text h hrest
  obtain ⟨c, others, htext, hc⟩ := exists_text_cons h
  rw [htext, List.cons_append] at hread ⊢
  rw [readValue_of_readNumber hc fuel hread, hvalue]

end Draft

end Retrofit

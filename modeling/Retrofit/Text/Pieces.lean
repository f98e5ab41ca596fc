/-!
# Texts cut at a separator

`pieces sep cs` are the parts of a text between the occurrences of a separator, the empty ones
included; `joinWith sep` puts parts back together. The two are inverse (`joinWith_pieces`,
`pieces_joinWith`), and no piece holds the separator (`notMem_of_mem_pieces`).

`lastIndexOf?` finds the place behind which a text does not hold a character any more
(`lastIndexOf?_eq_some`, `lastIndexOf?_eq_none`).
-/

namespace Retrofit.Text

/-- The parts of a text between the occurrences of `sep`; never an empty list. -/
def pieces (sep : Char) : List Char → List (List Char)
  | [] => [[]]
  | c :: cs =>
    if c = sep then [] :: pieces sep cs
    else match pieces sep cs with
      | [] => [[c]]
      | p :: ps => (c :: p) :: ps

/-- The parts of a list with `sep` between any two neighbours. -/
def joinWith (sep : List Char) : List (List Char) → List Char
  | [] => []
  | [p] => p
  | p :: q :: ps => p ++ sep ++ joinWith sep (q :: ps)

def lastIndexOf? (c : Char) (cs : List Char) : Option Nat :=
  (cs.reverse.findIdx? (· == c)).map fun i => cs.length - 1 - i

/-- The rest of a text behind a given beginning. -/
def strip? : List Char → List Char → Option (List Char)
  | [], cs => some cs
  | _ :: _, [] => none
  | p :: ps, c :: cs => if p = c then strip? ps cs else none

def stripEnd? (ending cs : List Char) : Option (List Char) :=
  (strip? ending.reverse cs.reverse).map List.reverse

theorem pieces_ne_nil (sep : Char) (cs : List Char) : pieces sep cs ≠ [] := by
  cases cs with
  | nil => simp [pieces]
  | cons c cs =>
    simp only [pieces]
    split
    · simp
    · split <;> simp

theorem joinWith_cons (sep p : List Char) {ps : List (List Char)} (h : ps ≠ []) :
    joinWith sep (p :: ps) = p ++ sep ++ joinWith sep ps := by
  cases ps with
  | nil => exact absurd rfl h
  | cons q qs => rfl

/-- Cutting loses nothing. -/
theorem joinWith_pieces (sep : Char) (cs : List Char) : joinWith [sep] (pieces sep cs) = cs := by
  induction cs with
  | nil => rfl
  | cons c cs ih =>
    by_cases h : c = sep
    · rw [pieces, if_pos h, joinWith_cons _ _ (pieces_ne_nil sep cs), ih, h]; rfl
    · rw [pieces, if_neg h]
      cases hp : pieces sep cs with
      | nil => exact absurd hp (pieces_ne_nil sep cs)
      | cons p ps =>
        rw [hp] at ih
        cases ps with
        | nil => simpa [joinWith] using ih
        | cons q qs => simpa [joinWith] using ih

/-- The last part is on its own if it is the only one, and behind a separator if not. -/
theorem joinWith_concat (sep : List Char) (ps : List (List Char)) (p : List Char) :
    joinWith sep (ps ++ [p]) = if ps = [] then p else joinWith sep ps ++ sep ++ p := by
  induction ps with
  | nil => rfl
  | cons q qs ih =>
    rw [List.cons_append, joinWith_cons _ _ (List.concat_ne_nil p qs), ih,
      if_neg (List.cons_ne_nil q qs)]
    by_cases h : qs = []
    · simp [h, joinWith]
    · rw [if_neg h, joinWith_cons _ _ h]
      simp only [List.append_assoc]

theorem mem_joinWith {sep : List Char} {ps : List (List Char)} {c : Char}
    (h : c ∈ joinWith sep ps) :
    c ∈ sep ∨ ∃ p ∈ ps, c ∈ p := by
  induction ps with
  | nil => cases h
  | cons p ps ih =>
    by_cases hps : ps = []
    · subst hps
      exact .inr ⟨p, List.mem_singleton_self p, h⟩
    · rw [joinWith_cons _ _ hps, List.mem_append, List.mem_append] at h
      rcases h with (h | h) | h
      · exact .inr ⟨p, List.mem_cons_self .., h⟩
      · exact .inl h
      · exact (ih h).imp_right fun ⟨q, hq, hc⟩ => ⟨q, List.mem_cons_of_mem p hq, hc⟩

theorem mem_joinWith_of_mem {sep p : List Char} {ps : List (List Char)} {c : Char} (hp : p ∈ ps)
    (h : c ∈ p) : c ∈ joinWith sep ps := by
  induction ps with
  | nil => cases hp
  | cons q ps ih =>
    by_cases hps : ps = []
    · subst hps
      exact List.mem_singleton.mp hp ▸ h
    · rw [joinWith_cons _ _ hps]
      rcases List.mem_cons.mp hp with rfl | hp
      · exact List.mem_append_left _ (List.mem_append_left _ h)
      · exact List.mem_append_right _ (ih hp)

theorem pieces_of_notMem {sep : Char} {cs : List Char} (h : sep ∉ cs) : pieces sep cs = [cs] := by
  induction cs with
  | nil => rfl
  | cons c cs ih =>
    rw [List.mem_cons, not_or] at h
    rw [pieces, if_neg (Ne.symm h.1), ih h.2]

/-- A text is cut at every separator. -/
theorem pieces_append_cons (sep : Char) (cs ds : List Char) :
    pieces sep (cs ++ sep :: ds) = pieces sep cs ++ pieces sep ds := by
  induction cs with
  | nil => simp [pieces]
  | cons c cs ih =>
    rw [List.cons_append, pieces, pieces, ih]
    split
    · rfl
    · cases hp : pieces sep cs with
      | nil => exact absurd hp (pieces_ne_nil sep cs)
      | cons p ps => rfl

/-- Parts that do not hold the separator are found again. -/
theorem pieces_joinWith {sep : Char} {ps : List (List Char)} (hne : ps ≠ [])
    (h : ∀ p ∈ ps, sep ∉ p) : pieces sep (joinWith [sep] ps) = ps := by
  induction ps with
  | nil => exact absurd rfl hne
  | cons p ps ih =>
    have hp : pieces sep p = [p] := pieces_of_notMem (h p (List.mem_cons_self ..))
    cases ps with
    | nil => exact hp
    | cons q qs =>
      rw [joinWith_cons _ _ (List.cons_ne_nil q qs), List.append_assoc, List.singleton_append,
        pieces_append_cons, hp,
        ih (List.cons_ne_nil q qs) fun r hr => h r (List.mem_cons_of_mem p hr)]
      rfl

theorem notMem_of_mem_pieces {sep : Char} {cs p : List Char} (h : p ∈ pieces sep cs) :
    sep ∉ p := by
  induction cs generalizing p with
  | nil =>
    rw [pieces, List.mem_singleton] at h
    simp [h]
  | cons c cs ih =>
    rw [pieces] at h
    split at h
    · rcases List.mem_cons.mp h with rfl | h
      · exact List.not_mem_nil
      · exact ih h
    · rename_i hc
      split at h
      · rw [List.mem_singleton] at h
        simp [h, Ne.symm hc]
      · rename_i q qs hq
        rw [hq] at ih
        rcases List.mem_cons.mp h with rfl | h
        · rw [List.mem_cons, not_or]
          exact ⟨Ne.symm hc, ih (List.mem_cons_self ..)⟩
        · exact ih (List.mem_cons_of_mem q h)

/-- A text can be cut at the last separator in one way. -/
theorem eq_of_append_cons_eq {sep : Char} {front front' back back' : List Char} (hback : sep ∉ back)
    (hback' : sep ∉ back') (h : front ++ sep :: back = front' ++ sep :: back') :
    front = front' ∧ back = back' := by
  have hpieces := congrArg (pieces sep) h
  rw [pieces_append_cons, pieces_append_cons, pieces_of_notMem hback,
    pieces_of_notMem hback'] at hpieces
  obtain ⟨hfront, hlast⟩ := List.append_inj' hpieces rfl
  constructor
  · rw [← joinWith_pieces sep front, hfront, joinWith_pieces]
  · exact (List.cons.inj hlast).1

theorem lastIndexOf?_eq_none {c : Char} {cs : List Char} : lastIndexOf? c cs = none ↔ c ∉ cs := by
  rw [lastIndexOf?, Option.map_eq_none_iff, List.findIdx?_eq_none_iff]
  constructor
  · intro h hmem
    exact absurd (h c (List.mem_reverse.mpr hmem)) (by simp)
  · intro h other hmem
    rw [beq_eq_false_iff_ne]
    rintro rfl
    exact h (List.mem_reverse.mp hmem)

/-- The text in front of the last occurrence is as long as its index says. -/
theorem lastIndexOf?_eq_some {c : Char} {cs : List Char} {i : Nat}
    (h : lastIndexOf? c cs = some i) :
    ∃ front back, cs = front ++ c :: back ∧ front.length = i ∧ c ∉ back := by
  obtain ⟨j, hfind, rfl⟩ := Option.map_eq_some_iff.mp h
  obtain ⟨hlt, hat, hbefore⟩ := List.findIdx?_eq_some_iff_getElem.mp hfind
  have hcut := List.take_append_drop j cs.reverse
  rw [List.drop_eq_getElem_cons hlt, beq_iff_eq.mp hat] at hcut
  have hlength : cs.length = cs.reverse.length := List.length_reverse.symm
  refine ⟨(cs.reverse.drop (j + 1)).reverse, (cs.reverse.take j).reverse, ?_, ?_, ?_⟩
  · have hreverse := congrArg List.reverse hcut
    simpa using hreverse.symm
  · rw [List.length_reverse, List.length_drop]
    omega
  · intro hmem
    obtain ⟨k, hk, hget⟩ := List.mem_iff_getElem.mp (List.mem_reverse.mp hmem)
    rw [List.length_take] at hk
    rw [List.getElem_take] at hget
    exact hbefore k (by omega) (beq_iff_eq.mpr hget)

theorem lastIndexOf?_append_cons {c : Char} {front back : List Char} (h : c ∉ back) :
    lastIndexOf? c (front ++ c :: back) = some front.length := by
  cases hindex : lastIndexOf? c (front ++ c :: back) with
  | none =>
    exact absurd (List.mem_append_right _ (List.mem_cons_self ..)) (lastIndexOf?_eq_none.mp hindex)
  | some i =>
    obtain ⟨front', back', hcut, rfl, hback'⟩ := lastIndexOf?_eq_some hindex
    rw [(eq_of_append_cons_eq h hback' hcut).1]

theorem strip?_append (pre cs : List Char) : strip? pre (pre ++ cs) = some cs := by
  induction pre with
  | nil => rfl
  | cons p ps ih => simpa [strip?] using ih

theorem stripEnd?_append (front ending : List Char) :
    stripEnd? ending (front ++ ending) = some front := by
  simp [stripEnd?, strip?_append]

theorem eq_append_of_strip? {pre cs rest : List Char} (h : strip? pre cs = some rest) :
    cs = pre ++ rest := by
  induction pre generalizing cs with
  | nil => simpa [strip?] using h
  | cons p ps ih =>
    cases cs with
    | nil => simp [strip?] at h
    | cons c cs =>
      by_cases hc : p = c
      · simp only [strip?, if_pos hc] at h
        simp [ih h, hc]
      · simp [strip?, hc] at h

theorem eq_append_of_stripEnd? {ending cs front : List Char}
    (h : stripEnd? ending cs = some front) :
    cs = front ++ ending := by
  obtain ⟨rest, hrest, rfl⟩ := Option.map_eq_some_iff.mp h
  rw [← List.reverse_inj, eq_append_of_strip? hrest]
  simp

end Retrofit.Text

import Mathlib.Tactic.SplitIfs
import Retrofit.Script.Grammar.Expression

/-!
# Lexemes end inside the text

What a function for a lexeme returns is the text behind it, an end of the text that it was given.
A function `f` that may fail has this property if `EndsIn f` holds. The functions that carry the
length of an escape or a comment with them have it for every such length.

A lexeme that is found has at least one character: the functions for whole lexemes return a text
behind the first one (`Takes`).
-/

namespace Retrofit.Script

variable {cs rest : List Char} {n : Nat} {markup commentEnds fresh inClass : Bool} {quote c : Char}

/-- Where a lexeme is found, the rest is an end of the text. -/
def EndsIn (lexeme : List Char → Option (List Char)) : Prop :=
  ∀ ⦃cs rest⦄, lexeme cs = some rest → rest <:+ cs

theorem cons_suffix_of_suffix (h : rest <:+ cs) : rest <:+ c :: cs :=
  h.trans (List.suffix_cons c cs)

theorem suffix_of_eq_cons (h : cs = c :: rest) : rest <:+ cs :=
  h ▸ List.suffix_cons c rest

/-- A text is an end of what is behind the first character of another one. -/
def Behind (cs rest : List Char) : Prop :=
  ∃ c behind, cs = c :: behind ∧ rest <:+ behind

theorem Behind.suffix (h : Behind cs rest) : rest <:+ cs := by
  obtain ⟨c, behind, rfl, hbehind⟩ := h
  exact cons_suffix_of_suffix hbehind

theorem Behind.length_lt (h : Behind cs rest) : rest.length < cs.length := by
  obtain ⟨c, behind, rfl, hbehind⟩ := h
  exact Nat.lt_succ_of_le hbehind.length_le

/-- Where a lexeme is found, the rest is behind the first character of the text. -/
def Takes (lexeme : List Char → Option (List Char)) : Prop :=
  ∀ ⦃cs rest⦄, lexeme cs = some rest → Behind cs rest

theorem Takes.endsIn {lexeme : List Char → Option (List Char)} (h : Takes lexeme) :
    EndsIn lexeme :=
  fun _ _ hrest => (h hrest).suffix

theorem endsIn_strip? (pre : List Char) : EndsIn (Text.strip? pre) := by
  intro cs rest h
  exact ⟨pre, (Text.eq_append_of_strip? h).symm⟩

/-! ## White space and comments -/

theorem skipGap_suffix (markup : Bool) (n : Nat) (cs : List Char) : skipGap markup n cs <:+ cs := by
  fun_induction skipGap markup n cs with
  | case1 => exact List.suffix_refl _
  | case2 n c cs ih => exact cons_suffix_of_suffix ih
  | case3 c cs hspace ih => exact cons_suffix_of_suffix ih
  | case4 c cs hspace n hcomment ih => exact cons_suffix_of_suffix ih
  | case5 => exact List.suffix_refl _

/-! ## Words -/

theorem spanWord_suffix (n : Nat) (cs : List Char) : (spanWord n cs).2 <:+ cs := by
  fun_induction spanWord n cs with
  | case1 => exact List.suffix_refl _
  | case2 n c cs word rest hspan ih =>
    rw [hspan] at ih
    exact cons_suffix_of_suffix ih
  | case3 c cs hpart word rest hspan ih =>
    rw [hspan] at ih
    exact cons_suffix_of_suffix ih
  | case4 digits n hnumber word rest hpart hspan ih => exact cons_suffix_of_suffix ih
  | case5 | case6 => exact List.suffix_refl _

/-- A word has at least one character. -/
theorem word?_behind {word : String} (h : word? cs = some (word, rest)) : Behind cs rest := by
  unfold word? at h
  cases cs with
  | nil => cases h
  | cons c cs =>
    refine ⟨c, cs, rfl, ?_⟩
    simp only at h
    split_ifs at h
    split at h
    · cases h
    · rename_i letters behind hnonempty heq
      cases h
      unfold spanWord at heq
      split_ifs at heq
      · have hspan := spanWord_suffix 0 cs
        cases heq
        exact hspan
      · split at heq
        · rename_i digits _ _
          split at heq
          · rename_i n hnumber
            have hspan := spanWord_suffix (n + 1) ('u' :: digits)
            cases heq
            exact hspan
          · cases heq
            exact absurd rfl hnonempty
        · cases heq
          exact absurd rfl hnonempty

theorem word?_suffix {word : String} (h : word? cs = some (word, rest)) : rest <:+ cs :=
  (word?_behind h).suffix

theorem takes_privateName? : Takes privateName? := by
  intro cs rest h
  unfold privateName? at h
  split at h
  · rename_i cs
    rw [Option.map_eq_some_iff] at h
    obtain ⟨⟨word, rest⟩, hword, rfl⟩ := h
    exact ⟨_, cs, rfl, word?_suffix hword⟩
  · cases h

/-! ## Numerals -/

theorem getD_suffix {lexeme : List Char → Option (List Char)} (hlexeme : EndsIn lexeme)
    {cs' : List Char} (h : cs' <:+ cs) : (lexeme cs').getD cs <:+ cs := by
  cases hrest : lexeme cs' with
  | none => exact List.suffix_refl _
  | some rest => exact (hlexeme hrest).trans h

theorem takes_digits? (digit : Char → Bool) : Takes (digits? digit) := by
  intro cs rest h
  fun_induction digits? digit cs generalizing rest with
  | case1 c cs hdigit ih ih' =>
    rw [Option.some.injEq] at h
    subst h
    refine ⟨c, cs, rfl, ?_⟩
    cases hmore : digits? digit cs with
    | some more => exact (ih hmore).suffix
    | none =>
      rw [Option.getD_none]
      split at ih'
      · rename_i cs'
        cases hbehind : digits? digit cs' with
        | some behind => exact cons_suffix_of_suffix (ih' hbehind).suffix
        | none => exact List.suffix_refl _
      · exact List.suffix_refl _
  | case2 | case3 => cases h

theorem endsIn_digits? (digit : Char → Bool) : EndsIn (digits? digit) :=
  (takes_digits? digit).endsIn

theorem skipExponent_suffix (cs : List Char) : skipExponent cs <:+ cs := by
  unfold skipExponent
  split
  · split_ifs
    · refine getD_suffix (endsIn_digits? _) (cons_suffix_of_suffix ?_)
      split
      · exact List.suffix_cons _ _
      · exact List.suffix_cons _ _
      · exact List.suffix_refl _
    · exact List.suffix_refl _
  · exact List.suffix_refl _

theorem skipBigMark_suffix (cs : List Char) : skipBigMark cs <:+ cs := by
  unfold skipBigMark
  split
  · exact List.suffix_cons _ _
  · exact List.suffix_refl _

theorem skipFraction_suffix (cs : List Char) : skipFraction cs <:+ cs :=
  (skipExponent_suffix _).trans (getD_suffix (endsIn_digits? _) (List.suffix_refl _))

theorem takes_decimal? : Takes decimal? := by
  intro cs rest h
  unfold decimal? at h
  split at h
  · rename_i cs
    rw [Option.map_eq_some_iff] at h
    obtain ⟨rest, hrest, rfl⟩ := h
    exact ⟨_, cs, rfl, (skipExponent_suffix rest).trans (endsIn_digits? _ hrest)⟩
  · rw [Option.bind_eq_bind, Option.bind_eq_some_iff] at h
    obtain ⟨behind, hbehind, h⟩ := h
    obtain ⟨c, tail, rfl, hdigits⟩ := takes_digits? _ hbehind
    refine ⟨c, tail, rfl, List.IsSuffix.trans ?_ hdigits⟩
    split at h
    · split_ifs at h
      · cases h
        exact cons_suffix_of_suffix (skipFraction_suffix _)
      · cases h
        exact List.suffix_refl _
    · cases h
      exact List.suffix_cons _ _
    · split_ifs at h
      · cases h
        exact skipExponent_suffix _
      · cases h
        exact List.suffix_refl _

theorem takes_numeral? : Takes numeral? := by
  have hbased : ∀ (digit : Char → Bool) {c d : Char} {ds cs rest : List Char}, cs = c :: d :: ds →
      ((digits? digit ds).map skipBigMark).or (decimal? cs) = some rest → Behind cs rest := by
    intro digit c d ds cs rest hcs h
    rw [Option.or_eq_some_iff] at h
    rcases h with h | ⟨-, h⟩
    · rw [Option.map_eq_some_iff] at h
      obtain ⟨behind, hbehind, rfl⟩ := h
      have hdigits := (skipBigMark_suffix behind).trans (endsIn_digits? _ hbehind)
      exact ⟨c, d :: ds, hcs, cons_suffix_of_suffix hdigits⟩
    · exact takes_decimal? h
  intro cs rest h
  unfold numeral? at h
  simp only at h
  split at h
  · exact hbased _ rfl h
  · exact hbased _ rfl h
  · exact hbased _ rfl h
  · exact hbased _ rfl h
  · exact hbased _ rfl h
  · exact hbased _ rfl h
  · exact takes_decimal? h

/-! ## Strings, regular expressions and templates -/

theorem closeString?_suffix (h : closeString? quote n cs = some rest) : rest <:+ cs := by
  fun_induction closeString? quote n cs with
  | case1 => cases h
  | case2 n c cs ih => exact cons_suffix_of_suffix (ih h)
  | case3 c cs hquote =>
    cases h
    exact List.suffix_cons _ _
  | case4 c cs hquote hescape ih =>
    rw [Option.bind_eq_some_iff] at h
    obtain ⟨n, -, h⟩ := h
    exact cons_suffix_of_suffix (ih n h)
  | case5 c cs hquote hescape hbreak d behind hgap hclose =>
    cases h
    refine cons_suffix_of_suffix ((List.suffix_cons d _).trans ?_)
    rw [← hgap]
    exact skipGap_suffix false 0 cs
  | case6 | case7 => cases h
  | case8 c cs hquote hescape hbreak ih => exact cons_suffix_of_suffix (ih h)

theorem takes_string? : Takes string? := by
  intro cs rest h
  unfold string? at h
  split at h
  · exact ⟨_, _, rfl, closeString?_suffix h⟩
  · exact ⟨_, _, rfl, closeString?_suffix h⟩
  · cases h

theorem closePattern?_suffix (h : closePattern? inClass cs = some rest) : rest <:+ cs := by
  fun_induction closePattern? inClass cs with
  | case1 | case2 | case4 => cases h
  | case3 inClass c cs hbreak ih => exact cons_suffix_of_suffix (cons_suffix_of_suffix (ih h))
  | case5 c cs hescape hbreak ih => exact cons_suffix_of_suffix (ih h)
  | case6 =>
    cases h
    exact List.suffix_cons _ _
  | case7 inClass c cs hescape hbreak hclass hclose ih => exact cons_suffix_of_suffix (ih h)

theorem takes_pattern? : Takes pattern? := by
  intro cs rest h
  unfold pattern? at h
  split at h
  · split_ifs at h
    rw [Option.map_eq_some_iff] at h
    obtain ⟨behind, hbehind, rfl⟩ := h
    exact ⟨_, _, rfl, (List.dropWhile_suffix _).trans (closePattern?_suffix hbehind)⟩
  · cases h

theorem templateText?_suffix {closed : Bool} (h : templateText? n cs = some (rest, closed)) :
    rest <:+ cs := by
  fun_induction templateText? n cs with
  | case1 | case4 => cases h
  | case2 n c cs ih => exact cons_suffix_of_suffix (ih h)
  | case3 =>
    cases h
    exact List.suffix_cons _ _
  | case5 c cs hquote hnull hescape ih =>
    rw [Option.bind_eq_some_iff] at h
    obtain ⟨n, -, h⟩ := h
    exact cons_suffix_of_suffix (ih n h)
  | case6 =>
    cases h
    exact cons_suffix_of_suffix (List.drop_suffix 1 _)
  | case7 c cs hquote hnull hescape hopen ih => exact cons_suffix_of_suffix (ih h)

/-! ## Markup -/

theorem endsIn_markupName? : EndsIn markupName? := by
  intro cs rest h
  unfold markupName? at h
  rw [Option.bind_eq_bind, Option.bind_eq_some_iff] at h
  obtain ⟨⟨word, behind⟩, hword, h⟩ := h
  have hbehind := word?_suffix hword
  simp only [Option.pure_def, Option.some.injEq] at h
  subst h
  split
  · exact (List.dropWhile_suffix _).trans hbehind
  · exact hbehind

theorem closeAttribute?_suffix (h : closeAttribute? quote n cs = some rest) : rest <:+ cs := by
  fun_induction closeAttribute? quote n cs with
  | case1 => cases h
  | case2 n c cs ih => exact cons_suffix_of_suffix (ih h)
  | case3 =>
    cases h
    exact List.suffix_cons _ _
  | case4 c cs hquote hreference ih =>
    rw [Option.bind_eq_some_iff] at h
    obtain ⟨n, -, h⟩ := h
    exact cons_suffix_of_suffix (ih n h)
  | case5 c cs hquote hreference ih => exact cons_suffix_of_suffix (ih h)

/-! ## What follows an operand -/

/-- The place in front of what follows. -/
def Following.place : Following → List Char
  | .ends place => place
  | .continues place => place

theorem followingFrom_suffix (commentEnds fresh : Bool) (n : Nat) (cs : List Char) :
    (followingFrom commentEnds fresh n cs).place <:+ cs := by
  fun_induction followingFrom commentEnds fresh n cs with
  | case1 fresh n c cs ih => exact cons_suffix_of_suffix ih
  | case2 | case3 | case4 | case6 | case7 => exact List.suffix_refl _
  | case5 fresh c cs hends hspace ih => exact cons_suffix_of_suffix ih
  | case8 fresh c cs hends hspace n hcomment ih => exact cons_suffix_of_suffix ih

theorem following_suffix (commentEnds : Bool) (cs : List Char) :
    (following commentEnds cs).place <:+ cs :=
  followingFrom_suffix ..

theorem endsIn_symbolPlace? (mode : Mode) : EndsIn mode.symbolPlace? := by
  intro cs rest h
  unfold Mode.symbolPlace? at h
  split_ifs at h
  · have hfollowing := following_suffix false cs
    split at h
    · cases h
    · rename_i heq
      rw [heq] at hfollowing
      cases h
      exact hfollowing
  · cases h
    exact skipGap_suffix _ _ _

end Retrofit.Script

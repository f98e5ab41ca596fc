import Mathlib.Data.List.Forall2
import Retrofit.Proofs.Version.Grammar
import Retrofit.Version.Tag

/-!
# How tags are written

**Theorem (`Tag.readsTags`).** A text is read as a tag exactly if it is one to three numbers with a
suffix, up to white space around it and to one `v` or `=` in front, with white space around the
sign. Missing numbers are zero. So the text of every version is read as that version, with a sign
and white space as well.

What is read is the text inside (`Tag.tagBody`). White space and a sign around it are taken away
(`tagBody_eq`), since no character of a version is blank and the first one is a digit.

**Two attempts** (`Tag.readTwice?_eq`). Reading a tag is the same as reading the text inside in
strict form and, where this fails, once more with a zero for every missing number.
-/

namespace Retrofit

open Text

namespace Version

variable {cs : List Char} {numbers : List Nat} {pre : List PreIdentifier} {build : List String}

/-! ## Characters of versions -/

theorem toNat_of_isAlphanum {c : Char} (h : c.isAlphanum) : 48 ≤ c.toNat ∧ c.toNat ≤ 122 := by
  have hranges : (decide (65 ≤ c.val ∧ c.val ≤ 90) || 97 ≤ c.val && c.val ≤ 122 ||
      48 ≤ c.val && c.val ≤ 57) = true := h
  simp only [Bool.or_eq_true, Bool.and_eq_true, decide_eq_true_eq,
    UInt32.le_iff_toNat_le] at hranges
  have hbounds : (65 ≤ c.toNat ∧ c.toNat ≤ 90 ∨ 97 ≤ c.toNat ∧ c.toNat ≤ 122) ∨
      48 ≤ c.toNat ∧ c.toNat ≤ 57 := hranges
  omega

theorem isBlank_of_isAlphanum {c : Char} (h : c.isAlphanum) : isBlank c = false := by
  obtain ⟨hlow, hhigh⟩ := toNat_of_isAlphanum h
  simp only [isBlank, Bool.or_eq_false_iff, Bool.and_eq_false_iff, decide_eq_false_iff_not,
    beq_eq_false_iff_ne]
  omega

theorem Identifier.isBlank (h : Identifier cs) : ∀ c ∈ cs, Text.isBlank c = false := by
  intro c hc
  rcases h.chars c hc with halphanum | rfl
  · exact isBlank_of_isAlphanum halphanum
  · decide

theorem Part.isBlank {α : Type} {sign : Char} {form : List Char → α → Prop} {items : List α}
    (h : Part sign form cs items) (hsign : Text.isBlank sign = false)
    (hform : ∀ part item, form part item → Identifier part) : ∀ c ∈ cs, Text.isBlank c = false := by
  cases h with
  | absent => exact fun c hc => nomatch hc
  | present h =>
    refine List.forall_mem_cons.mpr ⟨hsign, h.forall_mem (by decide) ?_⟩
    exact fun part item hitem => (hform part item hitem).isBlank

/-- A version holds no white space. -/
theorem Written.isBlank (h : Written cs numbers pre build) : ∀ c ∈ cs, Text.isBlank c = false := by
  obtain ⟨front, _, rfl, hnumbers, back, behind, rfl, hpre, hbuild⟩ := h
  have hfront : ∀ c ∈ front, Text.isBlank c = false :=
    hnumbers.forall_mem (by decide) fun part n hn => hn.1.identifier.isBlank
  have hback := hpre.isBlank (by decide) fun part item hitem => hitem.identifier
  have hbehind := hbuild.isBlank (by decide) fun part text htext => htext.2
  exact List.forall_mem_append.mpr ⟨hfront, List.forall_mem_append.mpr ⟨hback, hbehind⟩⟩

/-- A version begins with a digit. -/
theorem Written.head (h : Written cs numbers pre build) : ∃ c rest, cs = c :: rest ∧ c.isDigit := by
  obtain ⟨_, back, rfl, ⟨parts, hne, rfl, hparts⟩, -⟩ := h
  obtain ⟨part, rest, rfl⟩ := List.exists_cons_of_ne_nil hne
  obtain ⟨n, ns, ⟨hn, -⟩, -, rfl⟩ := List.forall₂_cons_left_iff.mp hparts
  obtain ⟨c, digits, rfl⟩ := List.exists_cons_of_ne_nil hn.ne_nil
  have hjoin : ∃ tail, joinWith ['.'] ((c :: digits) :: rest) = (c :: digits) ++ tail := by
    cases rest with
    | nil => exact ⟨[], (List.append_nil _).symm⟩
    | cons next rest => exact ⟨_, List.append_assoc ..⟩
  obtain ⟨tail, htail⟩ := hjoin
  refine ⟨c, digits ++ tail ++ back, ?_, hn.digits c (List.mem_cons_self ..)⟩
  rw [htail, List.cons_append, List.cons_append]

/-! ## Missing numbers -/

/-- The numbers with zeros for those that are missing. -/
def fill (numbers : List Nat) : List Nat :=
  numbers ++ List.replicate (3 - numbers.length) 0

theorem ofNumbers?_eq_some {a b c : Nat} :
    ofNumbers? numbers = some (a, b, c) ↔ numbers ≠ [] ∧ fill numbers = [a, b, c] := by
  match numbers with
  | [] => simp [ofNumbers?]
  | [_] => simp [ofNumbers?, fill]
  | [_, _] => simp [ofNumbers?, fill]
  | [_, _, _] => simp [ofNumbers?, fill]
  | _ :: _ :: _ :: _ :: _ => simp [ofNumbers?, fill]

theorem Written.numbers_ne_nil (h : Written cs numbers pre build) : numbers ≠ [] := by
  obtain ⟨_, _, -, ⟨parts, hne, -, hparts⟩, -⟩ := h
  rintro rfl
  exact hne (List.forall₂_nil_right_iff.mp hparts)

/-- A tag is read by what is inside. -/
theorem ofTag?_eq_some {tag : String} {v : Version} :
    ofTag? tag = some v ↔ ∃ numbers, fill numbers = [v.major, v.minor, v.patch] ∧
      Written (tagBody tag) numbers v.pre v.build := by
  constructor
  · intro h
    obtain ⟨numbers, hnumbers, h⟩ := Option.bind_eq_some_iff.mp h
    obtain ⟨⟨major, minor, patch⟩, hfill, h⟩ := Option.bind_eq_some_iff.mp h
    obtain ⟨⟨pre, build⟩, hsuffix, h⟩ := Option.bind_eq_some_iff.mp h
    cases h
    exact ⟨numbers, (ofNumbers?_eq_some.mp hfill).2, written_iff.mpr ⟨hnumbers, hsuffix⟩⟩
  · rintro ⟨numbers, hfill, hwritten⟩
    obtain ⟨hnumbers, hsuffix⟩ := written_iff.mp hwritten
    have hthree := ofNumbers?_eq_some.mpr ⟨hwritten.numbers_ne_nil, hfill⟩
    rw [ofTag?, hnumbers, Option.bind_eq_bind, Option.bind_some, hthree, Option.bind_eq_bind,
      Option.bind_some, hsuffix]
    rfl

/-! ## Two attempts -/

/-- The text with a zero for every missing number, if one to three runs of digits stand in front of
the suffix. -/
def padded? (cs : List Char) : Option (List Char) :=
  let parts := pieces '.' (cs.takeWhile (!endsNumbers ·))
  if parts.length ≤ 3 ∧ parts.all fun part => !part.isEmpty && part.all Char.isDigit then
    some (joinWith ['.'] (parts ++ List.replicate (3 - parts.length) ['0'])
      ++ cs.dropWhile (!endsNumbers ·))
  else none

/-- Runs of digits are found again in front of a suffix. -/
theorem cut_numbers {parts : List (List Char)} (back : List Char) (hne : parts ≠ [])
    (hparts : ∀ part ∈ parts, ∀ c ∈ part, c.isDigit)
    (hback : ∀ c ∈ back.head?, (!endsNumbers c) = false) :
    pieces '.' ((joinWith ['.'] parts ++ back).takeWhile (!endsNumbers ·)) = parts ∧
      (joinWith ['.'] parts ++ back).dropWhile (!endsNumbers ·) = back := by
  have hfront : ∀ c ∈ joinWith ['.'] parts, (!endsNumbers c) = true := by
    intro c hc
    rcases mem_joinWith hc with hdot | ⟨part, hpart, hc⟩
    · rw [List.mem_singleton.mp hdot]
      decide
    · rw [endsNumbers_of_isDigit (hparts part hpart c hc), Bool.not_false]
  have hcut := cut_append (!endsNumbers ·) hfront hback
  have hdots : ∀ part ∈ parts, '.' ∉ part :=
    fun part hpart hdot => absurd (hparts part hpart '.' hdot) (by decide)
  rw [hcut.1, hcut.2, pieces_joinWith hne hdots]
  exact ⟨rfl, rfl⟩

theorem mapM_zeros (k : Nat) :
    (List.replicate k ['0']).mapM component? = some (List.replicate k 0) := by
  induction k with
  | zero => rfl
  | succ k ih =>
    have hzero : component? ['0'] = some 0 := by decide
    rw [List.replicate_succ, List.mapM_cons, hzero, ih]
    rfl

/-- What is written in the padded text is what is written in the text, with the numbers filled
up. -/
theorem written_padded {padded : List Char} {filled : List Nat} (h : padded? cs = some padded) :
    Written padded filled pre build ↔
      ∃ numbers, fill numbers = filled ∧ Written cs numbers pre build := by
  unfold padded? at h
  extract_lets parts at h
  split_ifs at h with hparts
  have hdigits : ∀ part ∈ parts, ∀ c ∈ part, c.isDigit := by
    intro part hpart
    have hrun := List.all_eq_true.mp hparts.2 part hpart
    exact List.all_eq_true.mp (Bool.and_eq_true_iff.mp hrun).2
  cases h
  have hne : parts ≠ [] := pieces_ne_nil '.' _
  have hruns :
      ∀ part ∈ parts ++ List.replicate (3 - parts.length) ['0'], ∀ c ∈ part, c.isDigit := by
    refine List.forall_mem_append.mpr ⟨hdigits, fun part hpart => ?_⟩
    rw [List.eq_of_mem_replicate hpart, List.forall_mem_singleton]
    decide
  have hcut := cut_numbers (cs.dropWhile (!endsNumbers ·)) (List.append_ne_nil_of_left_ne_nil hne _)
    hruns fun c hc => by
      have hstop := List.head?_dropWhile_not (!endsNumbers ·) cs
      rwa [Option.mem_def.mp hc] at hstop
  have hfilled : (parts ++ List.replicate (3 - parts.length) ['0']).mapM component? = some filled ↔
      ∃ numbers, fill numbers = filled ∧ parts.mapM component? = some numbers := by
    rw [List.mapM_append, mapM_zeros]
    constructor
    · intro h
      obtain ⟨numbers, hnumbers, h⟩ := Option.bind_eq_some_iff.mp h
      cases h
      have hlength := (mapM_eq_some_iff.mp hnumbers).length_eq
      exact ⟨numbers, by rw [fill, hlength], hnumbers⟩
    · rintro ⟨numbers, rfl, hnumbers⟩
      rw [hnumbers, fill, (mapM_eq_some_iff.mp hnumbers).length_eq]
      rfl
  rw [written_iff, numbers?, hcut.1, hcut.2, hfilled, ← exists_and_right]
  exact exists_congr fun numbers => by rw [and_assoc, written_iff, numbers?]

/-- A text with at most three numbers can be padded. -/
theorem exists_padded (h : Written cs numbers pre build) (hlength : numbers.length ≤ 3) :
    ∃ padded, padded? cs = some padded := by
  have hparts := mapM_eq_some_iff.mp (written_iff.mp h).1
  refine ⟨_, if_pos ⟨hparts.length_eq ▸ hlength, List.all_eq_true.mpr ?_⟩⟩
  refine forall_of_forall₂ (fun part n hn => ?_) hparts
  obtain ⟨hne, hdigits, -, -⟩ := (component?_eq_some.mp hn).1
  rw [Bool.and_eq_true_iff, Bool.not_eq_true', List.isEmpty_eq_false_iff, List.all_eq_true]
  exact ⟨hne, hdigits⟩

end Version

namespace Tag

open Version

variable {tag : String} {front body behind : List Char} {v : Version}

/-! ## Around a version -/

/-- White space, one `v` or `=` or none, and white space again. -/
def Lead (front : List Char) : Prop :=
  ∃ before sign between, front = before ++ sign ++ between ∧ IsBlank before ∧
    (sign = [] ∨ sign = ['v'] ∨ sign = ['=']) ∧ IsBlank between

/-- The tag names the version: one to three numbers, a pre-release and build metadata, with a sign
and white space around them. -/
def Names (tag : String) (v : Version) : Prop :=
  ∃ front body behind numbers, tag.toList = front ++ body ++ behind ∧ Lead front ∧ IsBlank behind ∧
    Written body numbers v.pre v.build ∧ fill numbers = [v.major, v.minor, v.patch]

/-- What is read stands between a lead and white space. -/
theorem exists_lead (tag : String) :
    ∃ front behind, tag.toList = front ++ tagBody tag ++ behind ∧ Lead front ∧ IsBlank behind := by
  obtain ⟨before, after, hbefore, hafter, htag⟩ := exists_trim tag.toList
  have hsigned : ∀ sign rest, trim tag.toList = sign ++ rest →
      (sign = [] ∨ sign = ['v'] ∨ sign = ['=']) →
      ∃ front behind, tag.toList = front ++ trim rest ++ behind ∧ Lead front ∧ IsBlank behind := by
    intro sign rest htrim hsign
    obtain ⟨between, close, hbetween, hclose, hrest⟩ := exists_trim rest
    refine ⟨before ++ sign ++ between, close ++ after, ?_,
      ⟨before, sign, between, rfl, hbefore, hsign, hbetween⟩, hclose.append hafter⟩
    calc tag.toList = before ++ trim tag.toList ++ after := htag
      _ = before ++ (sign ++ (between ++ trim rest ++ close)) ++ after := by rw [htrim, ← hrest]
      _ = before ++ sign ++ between ++ trim rest ++ (close ++ after) := by
        simp only [List.append_assoc]
  unfold tagBody
  dsimp only
  split
  · exact hsigned ['v'] _ ‹_› (.inr (.inl rfl))
  · exact hsigned ['='] _ ‹_› (.inr (.inr rfl))
  · exact hsigned [] _ rfl (.inl rfl)

/-- A text without white space that begins with a digit is what is read, whatever lead and white
space are around it. -/
theorem tagBody_eq {c : Char} {rest : List Char}
    (htag : tag.toList = front ++ (c :: rest) ++ behind)
    (hfront : Lead front) (hbehind : IsBlank behind) (hdigit : c.isDigit)
    (hchars : ∀ d ∈ c :: rest, isBlank d = false) : tagBody tag = c :: rest := by
  obtain ⟨before, sign, between, rfl, hbefore, hsign, hbetween⟩ := hfront
  have hne : c :: rest ≠ [] := List.cons_ne_nil c rest
  have hfirst : isBlank c = false := hchars c (List.mem_cons_self ..)
  have hlast := hchars _ (List.getLast_mem hne)
  have hinner : trim (between ++ (c :: rest)) = c :: rest :=
    trim_eq (List.append_nil _).symm hbetween isBlank_nil hne hfirst hlast
  have hsigned : ∀ s : Char, isBlank s = false → sign = [s] →
      trim tag.toList = s :: (between ++ (c :: rest)) := by
    rintro s hs rfl
    refine trim_eq ?_ hbefore hbehind (List.cons_ne_nil s _) hs ?_
    · rw [htag]
      simp only [List.append_assoc, List.cons_append, List.nil_append]
    · rw [List.getLast_cons (by simp), List.getLast_append_of_ne_nil _ hne]
      exact hlast
  unfold tagBody
  rcases hsign with rfl | hv | heq
  · have htrim : trim tag.toList = c :: rest := by
      rw [List.append_nil] at htag
      exact trim_eq htag (hbefore.append hbetween) hbehind hne hfirst hlast
    have hself : trim (c :: rest) = c :: rest :=
      trim_eq (List.append_nil _).symm isBlank_nil isBlank_nil hne hfirst hlast
    dsimp only
    rw [htrim]
    -- A digit is neither of the signs.
    split
    · rename_i hv
      cases hv
      cases hdigit
    · rename_i heq
      cases heq
      cases hdigit
    · exact hself
  · rw [hsigned 'v' (by decide) hv]
    exact hinner
  · rw [hsigned '=' (by decide) heq]
    exact hinner

theorem ofTag?_iff_names : ofTag? tag = some v ↔ Names tag v := by
  rw [ofTag?_eq_some]
  constructor
  · rintro ⟨numbers, hfill, hwritten⟩
    obtain ⟨front, behind, htag, hfront, hbehind⟩ := exists_lead tag
    exact ⟨front, tagBody tag, behind, numbers, htag, hfront, hbehind, hwritten, hfill⟩
  · rintro ⟨front, body, behind, numbers, htag, hfront, hbehind, hwritten, hfill⟩
    obtain ⟨c, rest, rfl, hdigit⟩ := hwritten.head
    rw [tagBody_eq htag hfront hbehind hdigit hwritten.isBlank]
    exact ⟨numbers, hfill, hwritten⟩

/-- Reading a tag in two attempts with a reader of the strict form. -/
def readTwice? (strict? : String → Option Version) (tag : String) : Option Version :=
  (strict? (String.ofList (tagBody tag))).or
    ((padded? (tagBody tag)).bind fun cs => strict? (String.ofList cs))

/-- **Reading in two attempts is reading once.** -/
theorem readTwice?_eq {strict? : String → Option Version}
    (hstrict : ∀ text v, strict? text = some v ↔
      Written text.toList [v.major, v.minor, v.patch] v.pre v.build) (tag : String) :
    readTwice? strict? tag = ofTag? tag := by
  have hread : ∀ cs v, strict? (String.ofList cs) = some v ↔
      Written cs [v.major, v.minor, v.patch] v.pre v.build := by
    intro cs v
    rw [hstrict, String.toList_ofList]
  refine Option.ext fun v => ?_
  rw [readTwice?, Option.or_eq_some_iff, hread, Option.bind_eq_some_iff, ofTag?_eq_some]
  constructor
  · rintro (hwritten | ⟨-, padded, hpadded, hwritten⟩)
    · exact ⟨_, rfl, hwritten⟩
    · exact (written_padded hpadded).mp ((hread padded v).mp hwritten)
  · rintro ⟨numbers, hfill, hwritten⟩
    cases hfirst : strict? (String.ofList (tagBody tag)) with
    | none =>
      have hlength : numbers.length ≤ 3 := by
        have hthree := congrArg List.length hfill
        rw [fill, List.length_append] at hthree
        exact Nat.le_of_add_right_le hthree.le
      obtain ⟨padded, hpadded⟩ := exists_padded hwritten hlength
      exact .inr ⟨rfl, padded, hpadded,
        (hread padded v).mpr ((written_padded hpadded).mpr ⟨numbers, hfill, hwritten⟩)⟩
    | some w =>
      -- The text is written in one way only, so the first attempt has found the same version.
      obtain ⟨rfl, hpre, hbuild⟩ := hwritten.unique ((hread _ w).mp hfirst)
      have hnumbers : [w.major, w.minor, w.patch] = [v.major, v.minor, v.patch] := hfill
      simp only [List.cons.injEq, and_true] at hnumbers
      obtain ⟨hmajor, hminor, hpatch⟩ := hnumbers
      have hsame : w = v := by
        cases v
        cases w
        rw [Version.mk.injEq]
        exact ⟨hmajor, hminor, hpatch, hpre.symm, hbuild.symm⟩
      exact .inl ((hread _ v).mp (hsame ▸ hfirst))

/-- **Tags are read by their grammar**, and the text of a version names the version. -/
theorem readsTags :
    (∀ tag v, ofTag? tag = some v ↔ Names tag v) ∧
      ∀ v : Version, v.WellFormed → ∀ front behind, Lead front → IsBlank behind →
        ofTag? (String.ofList front ++ v.text ++ String.ofList behind) = some v := by
  refine ⟨fun tag v => ofTag?_iff_names, fun v hv front behind hfront hbehind => ?_⟩
  refine ofTag?_iff_names.mpr
    ⟨front, v.text.toList, behind, _, ?_, hfront, hbehind, written_text hv, ?_⟩
  · simp only [String.toList_append, String.toList_ofList]
  · rfl

end Tag

end Retrofit

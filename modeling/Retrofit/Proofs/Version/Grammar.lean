import Mathlib.Data.List.Forall2
import Retrofit.Proofs.Text.Trim
import Retrofit.Proofs.Version.Order

/-!
# How versions are written

**The grammar** (`Version.Written`). Numbers with dots between them, then a pre-release behind a
hyphen and build metadata behind a plus sign, which may both be absent. A number has no leading
zeros, and neither has an identifier of a pre-release that consists of digits; the numbers of the
version itself are below 2^64.

**Reading.** Each reader accepts exactly the texts of its form, with the value of the form
(`numeral?_eq_some`, `preIdentifier?_eq_some`, `dotted_iff`). A text is cut where the form says
because no character of a part can begin the next one (`Text.cut_append`). So numbers and suffix are
read exactly if the text is written in the grammar (`written_iff`), and the strict form is the
grammar with three numbers (`ofText?_eq_some`).

**Writing** (`written_text`). The text of a version that can be written is in the strict form. These
are the versions that `WellFormed` describes, and the ones that a text can name (`wellFormed_iff`).
-/

namespace Retrofit.Version

open Text

/-! ## Forms -/

/-- Decimal digits without leading zeros, and their value. -/
structure Numeral (cs : List Char) (n : Nat) : Prop where
  ne_nil : cs ≠ []
  digits : ∀ c ∈ cs, c.isDigit
  noLeadingZero : cs.head? = some '0' → cs = ['0']
  value : Nat.ofDigitChars 10 cs 0 = n

/-- A number that fits in 64 bits. -/
def Component (cs : List Char) (n : Nat) : Prop :=
  Numeral cs n ∧ n < UInt64.size

/-- Letters, digits and hyphens, at least one. -/
structure Identifier (cs : List Char) : Prop where
  ne_nil : cs ≠ []
  chars : ∀ c ∈ cs, c.isAlphanum ∨ c = '-'

/-- An identifier that is no number. -/
def Name (cs : List Char) : Prop :=
  Identifier cs ∧ ∃ c ∈ cs, c.isDigit = false

/-- An identifier of a pre-release as it is written. -/
inductive PreForm : List Char → PreIdentifier → Prop where
  | number {cs : List Char} {n : Nat} (h : Numeral cs n) : PreForm cs (.number n)
  | name {text : String} (h : Name text.toList) : PreForm text.toList (.name text)

/-- An identifier of build metadata as it is written. -/
def BuildForm (cs : List Char) (text : String) : Prop :=
  cs = text.toList ∧ Identifier cs

section Lists

variable {α : Type} {form : List Char → α → Prop} {items : List α} {cs : List Char}

/-- Items with dots between them, at least one. -/
def Dotted (form : List Char → α → Prop) (cs : List Char) (items : List α) : Prop :=
  ∃ parts, parts ≠ [] ∧ cs = joinWith ['.'] parts ∧ List.Forall₂ form parts items

/-- Items behind a sign, or nothing. -/
inductive Part (sign : Char) (form : List Char → α → Prop) : List Char → List α → Prop where
  | absent : Part sign form [] []
  | present {cs : List Char} {items : List α} (h : Dotted form cs items) :
    Part sign form (sign :: cs) items

end Lists

/-- The pre-release and the build metadata as they are written. -/
def WrittenSuffix (cs : List Char) (pre : List PreIdentifier) (build : List String) : Prop :=
  ∃ front back, cs = front ++ back ∧ Part '-' PreForm front pre ∧ Part '+' BuildForm back build

/-- Numbers, a pre-release and build metadata as they are written. -/
def Written (cs : List Char) (numbers : List Nat) (pre : List PreIdentifier) (build : List String) :
    Prop :=
  ∃ front back, cs = front ++ back ∧ Dotted Component front numbers ∧ WrittenSuffix back pre build

/-! ## Characters -/

variable {cs : List Char} {c : Char} {n : Nat}

theorem Numeral.notMem_dot (h : Numeral cs n) : '.' ∉ cs :=
  fun hmem => absurd (h.digits '.' hmem) (by decide)

theorem Identifier.notMem_dot (h : Identifier cs) : '.' ∉ cs :=
  fun hmem => absurd (h.chars '.' hmem) (by decide)

theorem isAlphanum_of_isDigit (h : c.isDigit) : c.isAlphanum := by
  rw [Char.isAlphanum, h, Bool.or_true]

theorem isIdentifierChar_iff : isIdentifierChar c ↔ c.isAlphanum ∨ c = '-' := by
  rw [isIdentifierChar, Bool.or_eq_true, beq_iff_eq]

/-! ## Single items -/

theorem digitsValue_eq (cs : List Char) : digitsValue cs = Nat.ofDigitChars 10 cs 0 := by
  rw [digitsValue, Nat.ofDigitChars_eq_foldl]
  congr 1
  funext value c
  rw [Nat.mul_comm]

theorem numeral?_eq_some : numeral? cs = some n ↔ Numeral cs n := by
  rw [numeral?, digitsValue_eq]
  constructor
  · intro h
    split_ifs at h with hform
    obtain ⟨hne, hdigits, hzero⟩ := hform
    exact ⟨hne, List.all_eq_true.mp hdigits, hzero, Option.some.inj h⟩
  · rintro ⟨hne, hdigits, hzero, rfl⟩
    rw [if_pos ⟨hne, List.all_eq_true.mpr hdigits, hzero⟩]

theorem component?_eq_some : component? cs = some n ↔ Component cs n := by
  rw [component?, Option.filter_eq_some_iff, numeral?_eq_some, decide_eq_true_eq]
  exact Iff.rfl

theorem identifier_iff : ¬ (cs = [] ∨ ¬ cs.all isIdentifierChar) ↔ Identifier cs := by
  rw [not_or, not_not, List.all_eq_true]
  constructor
  · rintro ⟨hne, hchars⟩
    exact ⟨hne, fun c hc => isIdentifierChar_iff.mp (hchars c hc)⟩
  · rintro ⟨hne, hchars⟩
    exact ⟨hne, fun c hc => isIdentifierChar_iff.mpr (hchars c hc)⟩

theorem Numeral.identifier (h : Numeral cs n) : Identifier cs :=
  ⟨h.ne_nil, fun c hc => .inl (isAlphanum_of_isDigit (h.digits c hc))⟩

theorem preIdentifier?_eq_some {item : PreIdentifier} :
    preIdentifier? cs = some item ↔ PreForm cs item := by
  rw [preIdentifier?]
  constructor
  · intro h
    split_ifs at h with hno hdigits
    · obtain ⟨n, hn, rfl⟩ := Option.map_eq_some_iff.mp h
      exact .number (numeral?_eq_some.mp hn)
    · have hname : ∃ c ∈ cs, c.isDigit = false := by simpa using hdigits
      have hform : PreForm (String.ofList cs).toList (.name (String.ofList cs)) := by
        refine .name ?_
        rw [String.toList_ofList]
        exact ⟨identifier_iff.mp hno, hname⟩
      rw [String.toList_ofList] at hform
      rw [← Option.some.inj h]
      exact hform
  · intro h
    cases h with
    | number h =>
      rw [if_neg (identifier_iff.mpr h.identifier), if_pos (List.all_eq_true.mpr h.digits),
        numeral?_eq_some.mpr h, Option.map_some]
    | @name text h =>
      obtain ⟨hidentifier, c, hc, hdigit⟩ := h
      have hnot : ¬ text.toList.all Char.isDigit := by
        intro hall
        rw [List.all_eq_true.mp hall c hc] at hdigit
        cases hdigit
      rw [if_neg (identifier_iff.mpr hidentifier), if_neg hnot, String.ofList_toList]

theorem buildIdentifier?_eq_some {text : String} :
    buildIdentifier? cs = some text ↔ BuildForm cs text := by
  rw [buildIdentifier?]
  constructor
  · intro h
    split_ifs at h with hno
    rw [← Option.some.inj h]
    exact ⟨String.toList_ofList.symm, identifier_iff.mp hno⟩
  · rintro ⟨rfl, hidentifier⟩
    rw [if_neg (identifier_iff.mpr hidentifier), String.ofList_toList]

theorem PreForm.identifier {item : PreIdentifier} (h : PreForm cs item) : Identifier cs := by
  cases h with
  | number h => exact h.identifier
  | name h => exact h.1

/-! ## Lists of items -/

section Lists

variable {α : Type} {read? : List Char → Option α} {form : List Char → α → Prop} {items : List α}

theorem forall_of_forall₂ {p : List Char → Prop} {parts : List (List Char)}
    (hform : ∀ part item, form part item → p part) (h : List.Forall₂ form parts items) :
    ∀ part ∈ parts, p part :=
  ((List.forall₂_and_left parts items).mp (h.imp fun part item hitem =>
    ⟨hform part item hitem, hitem⟩)).1

theorem mapM_eq_some_iff {parts : List (List Char)} :
    parts.mapM read? = some items ↔
      List.Forall₂ (fun part item => read? part = some item) parts items := by
  induction parts generalizing items with
  | nil => simp [eq_comm]
  | cons part parts ih =>
    rw [List.mapM_cons]
    constructor
    · intro h
      obtain ⟨item, hitem, h⟩ := Option.bind_eq_some_iff.mp h
      obtain ⟨rest, hrest, h⟩ := Option.bind_eq_some_iff.mp h
      cases h
      exact .cons hitem (ih.mp hrest)
    · rintro (_ | ⟨hitem, hrest⟩)
      rw [hitem, ih.mpr hrest]
      rfl

/-- Reading the pieces between the dots accepts what is written with dots between the items. -/
theorem dotted_iff (hread : ∀ part item, read? part = some item ↔ form part item)
    (hdot : ∀ part item, form part item → '.' ∉ part) :
    (pieces '.' cs).mapM read? = some items ↔ Dotted form cs items := by
  rw [mapM_eq_some_iff]
  constructor
  · intro h
    exact ⟨pieces '.' cs, pieces_ne_nil '.' cs, (joinWith_pieces '.' cs).symm,
      h.imp fun part item => (hread part item).mp⟩
  · rintro ⟨parts, hne, rfl, h⟩
    rw [pieces_joinWith hne (forall_of_forall₂ hdot h)]
    exact h.imp fun part item => (hread part item).mpr

/-- What is written with dots between items consists of dots and of what the items consist of. -/
theorem Dotted.forall_mem {p : Char → Prop} (h : Dotted form cs items) (hdot : p '.')
    (hform : ∀ part item, form part item → ∀ c ∈ part, p c) : ∀ c ∈ cs, p c := by
  obtain ⟨parts, -, rfl, h⟩ := h
  intro c hc
  rcases mem_joinWith hc with hc | ⟨part, hpart, hc⟩
  · rwa [List.mem_singleton.mp hc]
  · exact forall_of_forall₂ hform h part hpart c hc

end Lists

/-! ## The suffix -/

theorem Part.head? {α : Type} {sign : Char} {form : List Char → α → Prop} {items : List α}
    (h : Part sign form cs items) : ∀ c ∈ cs.head?, c = sign := by
  cases h with
  | absent => exact fun c hc => nomatch hc
  | present _ => exact fun c hc => (Option.some.inj hc).symm

theorem buildPart?_eq_some {build : List String} :
    buildPart? cs = some build ↔ Part '+' BuildForm cs build := by
  have hread : ∀ rest, (pieces '.' rest).mapM buildIdentifier? = some build ↔
      Dotted BuildForm rest build :=
    fun rest => dotted_iff (fun _ _ => buildIdentifier?_eq_some) fun _ _ h => h.2.notMem_dot
  constructor
  · intro h
    unfold buildPart? at h
    split at h
    · cases h
      exact .absent
    · exact .present ((hread _).mp h)
    · cases h
  · rintro (_ | hdotted)
    · rfl
    · exact (hread _).mpr hdotted

/-- A pre-release holds no plus sign. -/
theorem Dotted.ne_plus {pre : List PreIdentifier} (h : Dotted PreForm cs pre) :
    ∀ c ∈ cs, c ≠ '+' := by
  refine h.forall_mem (by decide) fun part item hitem c hc => ?_
  rintro rfl
  exact absurd (hitem.identifier.chars '+' hc) (by decide)

theorem suffix?_eq_some {pre : List PreIdentifier} {build : List String} :
    suffix? cs = some (pre, build) ↔ WrittenSuffix cs pre build := by
  have hread : ∀ rest, (pieces '.' rest).mapM preIdentifier? = some pre ↔ Dotted PreForm rest pre :=
    fun rest => dotted_iff (fun _ _ => preIdentifier?_eq_some) fun _ _ h => h.identifier.notMem_dot
  constructor
  · intro h
    unfold suffix? at h
    split at h
    · rename_i rest
      obtain ⟨pre', hpre, h⟩ := Option.bind_eq_some_iff.mp h
      obtain ⟨build', hbuild, h⟩ := Option.bind_eq_some_iff.mp h
      cases h
      refine ⟨_, _, ?_, .present ((hread _).mp hpre), buildPart?_eq_some.mp hbuild⟩
      rw [List.cons_append, List.takeWhile_append_dropWhile]
    · obtain ⟨build', hbuild, h⟩ := Option.map_eq_some_iff.mp h
      cases h
      exact ⟨[], cs, rfl, .absent, buildPart?_eq_some.mp hbuild⟩
  · rintro ⟨front, back, rfl, hfront, hback⟩
    cases hfront with
    | absent =>
      have hbuild := buildPart?_eq_some.mpr hback
      cases hback with
      | absent => rfl
      | present hdotted =>
        show (buildPart? _).map _ = _
        rw [hbuild]
        rfl
    | @present rest _ hdotted =>
      have hcut := cut_append (· ≠ '+') (fun c hc => by simpa using hdotted.ne_plus c hc)
        fun c hc => by simpa using hback.head? c hc
      rw [List.cons_append, suffix?, hcut.1, hcut.2, (hread rest).mpr hdotted,
        buildPart?_eq_some.mpr hback]
      rfl

/-! ## Versions -/

variable {numbers : List Nat} {pre : List PreIdentifier} {build : List String}

theorem endsNumbers_of_isDigit (h : c.isDigit) : endsNumbers c = false := by
  rw [endsNumbers, Bool.or_eq_false_iff, beq_eq_false_iff_ne, beq_eq_false_iff_ne]
  constructor
  · rintro rfl
    exact absurd h (by decide)
  · rintro rfl
    exact absurd h (by decide)

/-- No number and no dot ends the numbers. -/
theorem Dotted.endsNumbers (h : Dotted Component cs numbers) :
    ∀ c ∈ cs, (!Version.endsNumbers c) = true := by
  refine h.forall_mem (by decide) fun part n hn c hc => ?_
  rw [endsNumbers_of_isDigit (hn.1.digits c hc), Bool.not_false]

theorem WrittenSuffix.head? (h : WrittenSuffix cs pre build) :
    ∀ c ∈ cs.head?, (!Version.endsNumbers c) = false := by
  obtain ⟨front, back, rfl, hfront, hback⟩ := h
  cases hfront with
  | absent =>
    intro c hc
    rw [hback.head? c hc]
    rfl
  | present _ =>
    intro c hc
    cases hc
    rfl

/-- **Reading follows the grammar.** -/
theorem written_iff :
    Written cs numbers pre build ↔
      numbers? cs = some numbers ∧ suffix? (cs.dropWhile (!endsNumbers ·)) = some (pre, build) := by
  have hread : ∀ front, (pieces '.' front).mapM component? = some numbers ↔
      Dotted Component front numbers :=
    fun front => dotted_iff (fun _ _ => component?_eq_some) fun _ _ h => h.1.notMem_dot
  constructor
  · rintro ⟨front, back, rfl, hfront, hback⟩
    have hcut := cut_append (!endsNumbers ·) hfront.endsNumbers hback.head?
    rw [numbers?, hcut.1, hcut.2]
    exact ⟨(hread front).mpr hfront, suffix?_eq_some.mpr hback⟩
  · rintro ⟨hnumbers, hsuffix⟩
    exact ⟨_, _, List.takeWhile_append_dropWhile.symm, (hread _).mp hnumbers,
      suffix?_eq_some.mp hsuffix⟩

/-- A text is written in one way only. -/
theorem Written.unique {numbers' : List Nat} {pre' : List PreIdentifier} {build' : List String}
    (h : Written cs numbers pre build) (h' : Written cs numbers' pre' build') :
    numbers = numbers' ∧ pre = pre' ∧ build = build' := by
  obtain ⟨hnumbers, hsuffix⟩ := written_iff.mp h
  obtain ⟨hnumbers', hsuffix'⟩ := written_iff.mp h'
  rw [hnumbers, Option.some.injEq] at hnumbers'
  rw [hsuffix, Option.some.injEq, Prod.mk.injEq] at hsuffix'
  exact ⟨hnumbers', hsuffix'⟩

/-- The strict form has three numbers. -/
theorem ofText?_eq_some {text : String} {v : Version} :
    ofText? text = some v ↔ Written text.toList [v.major, v.minor, v.patch] v.pre v.build := by
  rw [written_iff, ofText?]
  constructor
  · intro h
    obtain ⟨numbers, hnumbers, h⟩ := Option.bind_eq_some_iff.mp h
    split at h
    · obtain ⟨⟨pre, build⟩, hsuffix, h⟩ := Option.bind_eq_some_iff.mp h
      cases h
      exact ⟨hnumbers, hsuffix⟩
    · cases h
  · rintro ⟨hnumbers, hsuffix⟩
    dsimp only
    rw [hnumbers, Option.bind_eq_bind, Option.bind_some]
    dsimp only
    rw [hsuffix]
    rfl

/-! ## Writing -/

/-- The identifier can be written. -/
def PreIdentifier.WellFormed : PreIdentifier → Prop
  | .number _ => True
  | .name text => Name text.toList

/-- The version can be written: its numbers fit in 64 bits, and its names are identifiers. -/
structure WellFormed (v : Version) : Prop where
  fits : ∀ n ∈ [v.major, v.minor, v.patch], n < UInt64.size
  pre : ∀ item ∈ v.pre, PreIdentifier.WellFormed item
  build : ∀ text ∈ v.build, Identifier text.toList

/-- A number in decimal digits begins with zero only if it is zero. -/
theorem eq_zero_of_head?_toDigits {n : Nat} : (Nat.toDigits 10 n).head? = some '0' → n = 0 := by
  induction n using Nat.strongRecOn with
  | ind n ih =>
    intro h
    by_cases hlt : n < 10
    · rw [Nat.toDigits_of_lt_base hlt] at h
      have hdigit : n.digitChar.toNat = '0'.toNat := congrArg Char.toNat (Option.some.inj h)
      have hzero : '0'.toNat = 48 := rfl
      rw [Nat.toNat_digitChar_of_lt_ten hlt] at hdigit
      omega
    · have hdiv : n / 10 < n := by omega
      rw [Nat.toDigits_of_base_le (by decide) (by omega),
        List.head?_append_of_ne_nil _ Nat.toDigits_ne_nil] at h
      have hzero := ih (n / 10) hdiv h
      omega

theorem numeral_toString (n : Nat) : Numeral (toString n).toList n := by
  rw [Nat.toString_eq_ofList_toDigits, String.toList_ofList]
  refine ⟨Nat.toDigits_ne_nil, fun c hc => ?_, fun hzero => ?_, Nat.ofDigitChars_ten_toDigits⟩
  · exact Nat.isDigit_of_mem_toDigits (by decide) (by decide) hc
  · rw [eq_zero_of_head?_toDigits hzero]
    rfl

theorem preForm_text {item : PreIdentifier} (h : PreIdentifier.WellFormed item) :
    PreForm (PreIdentifier.text item).toList item := by
  cases item with
  | number n => exact .number (numeral_toString n)
  | name text => exact .name h

theorem joinWith_eq_intercalate (sep : List Char) (parts : List (List Char)) :
    joinWith sep parts = sep.intercalate parts := by
  induction parts with
  | nil => rfl
  | cons part rest ih =>
    cases rest with
    | nil => simp [joinWith]
    | cons next rest => rw [joinWith, ih, List.intercalate_cons_cons, List.append_assoc]

section Lists

variable {α : Type} {form : List Char → α → Prop} {items : List α}

/-- Items that are spelled in their form and put together with dots. -/
theorem dotted_dotted (spell : α → String) (hne : items ≠ [])
    (h : ∀ item ∈ items, form (spell item).toList item) :
    Dotted form (dotted (items.map spell)).toList items := by
  refine ⟨items.map fun item => (spell item).toList, by simpa using hne, ?_, ?_⟩
  · rw [dotted, String.toList_intercalate, joinWith_eq_intercalate, List.map_map]
    rfl
  · rw [List.forall₂_map_left_iff, List.forall₂_same]
    exact h

theorem part_dotted {sign : Char} (mark : String) (hmark : mark.toList = [sign])
    (spell : α → String) (h : ∀ item ∈ items, form (spell item).toList item) :
    Part sign form (if items.isEmpty then ""
      else mark ++ dotted (items.map spell)).toList items := by
  split_ifs with hempty
  · rw [List.isEmpty_iff.mp hempty]
    exact .absent
  · rw [String.toList_append, hmark]
    exact .present (dotted_dotted spell (by simpa using hempty) h)

end Lists

/-- **The text of a version is in the strict form.** -/
theorem written_text {v : Version} (h : v.WellFormed) :
    Written v.text.toList [v.major, v.minor, v.patch] v.pre v.build := by
  have hcomponent : ∀ n ∈ [v.major, v.minor, v.patch], Component (toString n).toList n :=
    fun n hn => ⟨numeral_toString n, h.fits n hn⟩
  have hspelled : ∀ text ∈ v.build, BuildForm (id text).toList text :=
    fun text htext => ⟨rfl, h.build text htext⟩
  have hnumbers := dotted_dotted toString (List.cons_ne_nil _ _) hcomponent
  have hpre :=
    part_dotted "-" rfl PreIdentifier.text fun item hitem => preForm_text (h.pre item hitem)
  have hbuild := part_dotted "+" rfl id hspelled
  refine ⟨_, _, ?_, hnumbers, _, _, rfl, hpre, hbuild⟩
  rw [List.map_id]
  simp only [text, dotted, List.map_cons, List.map_nil, String.intercalate_cons_cons,
    String.intercalate_singleton, ← String.toList_append, String.append_assoc]

theorem ofText?_text {v : Version} (h : v.WellFormed) : ofText? v.text = some v :=
  ofText?_eq_some.mpr (written_text h)

theorem Dotted.forall_item {α : Type} {form : List Char → α → Prop} {items : List α} {p : α → Prop}
    (h : Dotted form cs items) (hform : ∀ part item, form part item → p item) :
    ∀ item ∈ items, p item := by
  obtain ⟨parts, -, -, h⟩ := h
  have hflip : List.Forall₂ (fun item part => p item ∧ form part item) items parts :=
    (h.imp fun part item hitem => ⟨hform part item hitem, hitem⟩).flip
  exact ((List.forall₂_and_left items parts).mp hflip).1

theorem Part.forall_item {α : Type} {sign : Char} {form : List Char → α → Prop} {items : List α}
    {p : α → Prop} (h : Part sign form cs items) (hform : ∀ part item, form part item → p item) :
    ∀ item ∈ items, p item := by
  cases h with
  | absent => exact fun item hitem => nomatch hitem
  | present h => exact h.forall_item hform

/-- The versions that can be written are those that are read. -/
theorem wellFormed_iff {v : Version} : v.WellFormed ↔ ∃ text, ofText? text = some v := by
  constructor
  · exact fun h => ⟨v.text, ofText?_text h⟩
  · rintro ⟨text, h⟩
    obtain ⟨front, back, -, hnumbers, _, _, -, hpre, hbuild⟩ := ofText?_eq_some.mp h
    refine ⟨hnumbers.forall_item fun _ _ h => h.2, hpre.forall_item fun part item hitem => ?_,
      hbuild.forall_item fun part text htext => ?_⟩
    · cases hitem with
      | number _ => trivial
      | name hname => exact hname
    · rw [← htext.1]
      exact htext.2

end Retrofit.Version

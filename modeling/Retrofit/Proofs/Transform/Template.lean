import Retrofit.Transform.Apply

/-!
# The meaning of replacement templates

Templates are meant to be read as `String.prototype.replace` of JavaScript reads them. There a
template is taken apart from the left: what stands in front is a reference of some length, the
reference is replaced, and the same is done with what follows it. `Reference` is one such step, and
`Context.substitute` goes through the whole template.

**Theorem (`expand_eq_substitute_iff`).** A template is expanded to its meaning if and only if the
pattern has named groups, or the template has no closed `$<` for the scanner to come to. Without
named groups `$<` should stand for itself, but the scanner takes it and the name behind it for a
group that took no part (`not_expand_eq_substitute`).

The scanner takes off one reference after the other as well, so all other templates follow by
induction on what is left (`expandFrom_reference`). Where it leaves out a name, its text stays
shorter than the meaning (`length_expandFrom_le`), since what should have been written begins with
`$<`, and the two scans come together again behind the name.
-/

namespace Retrofit.Template

/-! ## References -/

/-- What the references of a template stand for. -/
structure Context where
  /-- The text in which something is replaced. -/
  text : List Char
  /-- The place in the text at which the match begins. -/
  position : Nat
  matched : List Char
  /-- The groups from the first on; none for those that took no part. -/
  captures : List (Option (List Char))
  /-- The groups by name, if the pattern has any names. -/
  named : Option (List (String × Option (List Char)))

/-- A reference as it is written in front of a template, and what takes its place. -/
structure Reference where
  written : List Char
  replacement : List Char

/-- Characters that stand for themselves. -/
def Reference.literal (cs : List Char) : Reference := ⟨cs, cs⟩

namespace Context

/-- The number that decimal digits stand for. -/
def number (digits : List Char) : Nat :=
  digits.foldl (fun n d => n * 10 + (d.toNat - '0'.toNat)) 0

/-- A dollar sign with one or two digits. Two digits that go beyond the groups are read as one digit
with another one behind it, and a number that no group has stands for itself. -/
def numberReference (c : Context) (digits : List Char) : Reference :=
  let digits :=
    if c.captures.length < number digits ∧ digits.length = 2 then digits.take 1 else digits
  let index := number digits
  if 1 ≤ index ∧ index ≤ c.captures.length then
    ⟨'$' :: digits, (c.captures[index - 1]?.join).getD []⟩
  else .literal ('$' :: digits)

/-- A name in angle brackets behind a dollar sign. Nothing takes its place if the group took no part
or there is none of that name. -/
def nameReference (groups : List (String × Option (List Char))) (name : List Char) : Reference :=
  ⟨['$', '<'] ++ name ++ ['>'],
    ((groups.find? (·.1 == String.ofList name)).bind Prod.snd).getD []⟩

/-- The reference in front of a template. -/
def reference (c : Context) : List Char → Reference
  | '$' :: '$' :: _ => ⟨['$', '$'], ['$']⟩
  | '$' :: '`' :: _ => ⟨['$', '`'], c.text.take c.position⟩
  | '$' :: '&' :: _ => ⟨['$', '&'], c.matched⟩
  | '$' :: '\'' :: _ =>
    ⟨['$', '\''], c.text.drop (min (c.position + c.matched.length) c.text.length)⟩
  | '$' :: '<' :: rest =>
    match c.named with
    | some groups =>
      if '>' ∈ rest then nameReference groups (rest.takeWhile (· != '>')) else .literal ['$', '<']
    | none => .literal ['$', '<']
  | '$' :: rest =>
    let digits := (rest.take 2).takeWhile Char.isDigit
    if digits = [] then .literal ['$'] else c.numberReference digits
  | x :: _ => .literal [x]
  | [] => .literal []

variable {c : Context} {x : Char} {xs name rest : List Char}

theorem eq_takeWhile_append_of_mem {y : Char} (h : y ∈ xs) :
    ∃ rest, xs = xs.takeWhile (· != y) ++ y :: rest := by
  induction xs with
  | nil => cases h
  | cons x xs ih =>
    by_cases hx : x = y
    · subst hx
      exact ⟨xs, by simp⟩
    · obtain ⟨rest, hrest⟩ := ih ((List.mem_cons.mp h).resolve_left (Ne.symm hx))
      refine ⟨rest, ?_⟩
      rw [List.takeWhile_cons_of_pos (by simpa using hx), List.cons_append, ← hrest]

/-- Of the digits that could belong to a reference, it takes the first ones. -/
theorem written_numberReference (c : Context) (digits : List Char) :
    ∃ used left, digits = used ++ left ∧ (c.numberReference digits).written = '$' :: used := by
  unfold numberReference
  dsimp only
  generalize hused : (if c.captures.length < number digits ∧ digits.length = 2 then digits.take 1
    else digits) = used
  have hfront : ∃ left, digits = used ++ left := by
    subst hused
    split
    · exact ⟨_, (List.take_append_drop 1 digits).symm⟩
    · exact ⟨[], (List.append_nil _).symm⟩
  obtain ⟨left, hleft⟩ := hfront
  refine ⟨used, left, hleft, ?_⟩
  split <;> rfl

/-- A reference is written in front of the template. It has at least one character, and a closing
bracket behind that only where groups have names. -/
theorem exists_written (c : Context) (x : Char) (xs : List Char) :
    ∃ used rest, (c.reference (x :: xs)).written = x :: used ∧ xs = used ++ rest ∧
      (c.named = none → '>' ∉ used) := by
  generalize hcs : x :: xs = cs
  fun_cases reference c cs with
  | case1 tail => cases hcs; exact ⟨['$'], tail, rfl, rfl, by simp⟩
  | case2 tail => cases hcs; exact ⟨['`'], tail, rfl, rfl, by simp⟩
  | case3 tail => cases hcs; exact ⟨['&'], tail, rfl, rfl, by simp⟩
  | case4 tail => cases hcs; exact ⟨['\''], tail, rfl, rfl, by simp⟩
  | case5 tail groups hgroups hmem =>
    cases hcs
    obtain ⟨rest, hrest⟩ := eq_takeWhile_append_of_mem hmem
    refine ⟨'<' :: tail.takeWhile (· != '>') ++ ['>'], rest, rfl, ?_, by simp [hgroups]⟩
    rw [List.cons_append, List.cons_append, List.append_assoc, List.singleton_append, ← hrest]
  | case6 tail => cases hcs; exact ⟨['<'], tail, rfl, rfl, by simp⟩
  | case7 tail => cases hcs; exact ⟨['<'], tail, rfl, rfl, by simp⟩
  | case8 => cases hcs; exact ⟨[], xs, rfl, rfl, by simp⟩
  | case9 _ _ _ _ _ _ digits =>
    cases hcs
    obtain ⟨used, left, hused, hwritten⟩ := written_numberReference c digits
    obtain ⟨tail, htail⟩ := (List.takeWhile_prefix Char.isDigit).trans (List.take_prefix 2 xs)
    refine ⟨used, left ++ tail, hwritten, ?_, fun _ hmem => ?_⟩
    · rw [← List.append_assoc, ← hused, htail]
    · have hdigit : '>' ∈ digits := hused ▸ List.mem_append_left left hmem
      exact absurd (List.all_eq_true.mp List.all_takeWhile _ hdigit) (by decide)
  | case10 => cases hcs; exact ⟨[], xs, rfl, rfl, by simp⟩
  | case11 => cases hcs

/-- The meaning of a template: the reference in front is replaced, then the one behind it, and so
on. -/
def substitute (c : Context) : List Char → List Char
  | [] => []
  | x :: xs =>
    let reference := c.reference (x :: xs)
    reference.replacement ++ substitute c ((x :: xs).drop reference.written.length)
termination_by template => template.length
decreasing_by
  obtain ⟨used, rest, hwritten, -, -⟩ := exists_written c x xs
  simp only [hwritten, List.length_cons, List.length_drop]
  omega

/-- Without named groups no reference goes beyond a closing bracket, so the template behind the
bracket keeps its meaning. -/
theorem substitute_append_bracket (hnamed : c.named = none) (hname : '>' ∉ name)
    (rest : List Char) :
    ∃ front, c.substitute (name ++ '>' :: rest) = front ++ '>' :: c.substitute rest := by
  induction hlength : name.length using Nat.strongRecOn generalizing name with
  | ind n ih =>
    cases name with
    | nil =>
      refine ⟨[], ?_⟩
      rw [List.nil_append, substitute]
      rfl
    | cons x xs =>
      obtain ⟨used, left, hwritten, hleft, hused⟩ := exists_written c x (xs ++ '>' :: rest)
      obtain ⟨name', rfl, hrest⟩ : ∃ name', xs = used ++ name' ∧ left = name' ++ '>' :: rest := by
        rcases List.append_eq_append_iff.mp hleft
            with ⟨beyond, hbeyond, hrest⟩ | ⟨name', hxs, hrest⟩
        · cases beyond with
          | nil => exact ⟨[], by simpa using hbeyond.symm, by simpa using hrest.symm⟩
          | cons y beyond =>
            obtain ⟨rfl, -⟩ := List.cons.inj hrest
            exact absurd (hbeyond ▸ List.mem_append_right xs (List.mem_cons_self ..)) (hused hnamed)
        · exact ⟨name', hxs, hrest⟩
      have hshorter : name'.length < n := by
        rw [← hlength, List.length_cons, List.length_append]
        omega
      have hname' : '>' ∉ name' := fun hmem =>
        hname (List.mem_cons_of_mem x (List.mem_append_right used hmem))
      obtain ⟨front, hfront⟩ := ih name'.length hshorter hname' rfl
      refine ⟨(c.reference (x :: (used ++ name' ++ '>' :: rest))).replacement ++ front, ?_⟩
      rw [List.cons_append, substitute, hwritten, List.length_cons, List.drop_succ_cons, hleft,
        List.drop_left, hrest, hfront, List.append_assoc]

end Context

/-- What a match means for the references of a template. -/
def context (m : Match) : Context where
  text := m.before ++ m.whole ++ m.after
  position := m.before.length
  matched := m.whole
  captures := m.groups
  named :=
    if m.names = [] then none
    else some (m.names.map fun (name, n) => (name, m.groups[n - 1]?.join))

/-! ## Names in templates -/

/-- Whether a template begins with a name in brackets. -/
def opensName : List Char → Bool
  | '$' :: '<' :: cs => cs.contains '>'
  | _ => false

/-- Whether a reference of a template is a name in brackets. -/
def refersByName : List Char → Bool
  | '$' :: '$' :: cs => refersByName cs
  | '$' :: '<' :: cs => cs.contains '>'
  | _ :: cs => refersByName cs
  | [] => false

variable {m : Match} {cs rest xs used : List Char} {x a b : Char}

theorem refersByName_of_opensName (h : opensName cs = true) : refersByName cs = true := by
  unfold opensName at h
  split at h
  · rwa [refersByName]
  · cases h

theorem refersByName_of_notMem (h : '>' ∉ cs) : refersByName cs = false := by
  fun_induction refersByName cs with
  | case1 cs ih => exact ih fun hmem => h (by simp [hmem])
  | case2 cs => simpa using h
  | case3 x cs _ _ ih => exact ih fun hmem => h (List.mem_cons_of_mem x hmem)
  | case4 => rfl

theorem refersByName_cons (hx : x ≠ '$') : refersByName (x :: xs) = refersByName xs := by
  rw [refersByName]
  · simp_all
  · simp_all

theorem refersByName_append (used : List Char) (h : '$' ∉ used) :
    refersByName (used ++ rest) = refersByName rest := by
  induction used with
  | nil => rfl
  | cons x xs ih =>
    obtain ⟨hx, hxs⟩ := List.ne_and_not_mem_of_not_mem_cons h
    rw [List.cons_append, refersByName_cons (Ne.symm hx), ih hxs]

theorem refersByName_dollar (hdollar : ∀ tail, cs ≠ '$' :: tail)
    (hname : ∀ tail, cs ≠ '<' :: tail) :
    refersByName ('$' :: cs) = refersByName cs := by
  rw [refersByName]
  · simpa using hdollar
  · simpa using hname

/-- Behind a reference that is no name, the template has the same names. -/
theorem refersByName_reference (c : Context) (h : opensName (x :: xs) = false) :
    refersByName (x :: xs) =
      refersByName ((x :: xs).drop (c.reference (x :: xs)).written.length) := by
  have hopened : ∀ tail, x :: xs = '$' :: '<' :: tail →
      refersByName (x :: xs) = refersByName tail := by
    intro tail htail
    rw [htail] at h ⊢
    have hmem : '>' ∉ tail := by simpa [opensName] using h
    rw [refersByName_of_notMem hmem, refersByName, List.contains_eq_mem, decide_eq_false hmem]
  generalize hcs : x :: xs = cs at h hopened ⊢
  fun_cases Context.reference c cs with
  | case1 tail => rfl
  | case2 tail => exact refersByName_append ['`'] (by decide)
  | case3 tail => exact refersByName_append ['&'] (by decide)
  | case4 tail => exact refersByName_append ['\''] (by decide)
  | case5 tail groups hgroups hmem => simp [opensName, hmem] at h
  | case6 tail groups hgroups hmem => exact hopened tail rfl
  | case7 tail hnamed => exact hopened tail rfl
  | case8 tail hdollar _ _ _ hname => exact refersByName_dollar hdollar hname
  | case9 tail hdollar _ _ _ hname digits =>
    obtain ⟨used, left, hused, hwritten⟩ := c.written_numberReference digits
    obtain ⟨rest, hrest⟩ := (List.takeWhile_prefix Char.isDigit).trans (List.take_prefix 2 tail)
    have htail : tail = used ++ (left ++ rest) := by rw [← List.append_assoc, ← hused, hrest]
    have hplain : '$' ∉ used := by
      intro hmem
      have hdigit : '$' ∈ digits := hused ▸ List.mem_append_left left hmem
      exact absurd (List.all_eq_true.mp List.all_takeWhile _ hdigit) (by decide)
    rw [refersByName_dollar hdollar hname, hwritten, List.length_cons, List.drop_succ_cons, htail,
      List.drop_left, refersByName_append used hplain]
  | case10 y tail _ _ _ _ _ hy => exact refersByName_cons hy
  | case11 => rfl

/-! ## Tokens -/

theorem expandFrom_eq (n : Nat) (cs : List Char) :
    expandFrom m n cs = expandFrom m 0 (cs.drop n) := by
  induction n generalizing cs with
  | zero => rfl
  | succ n ih =>
    cases cs with
    | nil => rfl
    | cons x xs => rw [expandFrom, ih, List.drop_succ_cons]

theorem expandFrom_append (xs : List Char) (h : '$' ∉ xs) (rest : List Char) :
    expandFrom m 0 (xs ++ rest) = xs ++ expandFrom m 0 rest := by
  induction xs with
  | nil => rfl
  | cons x xs ih =>
    obtain ⟨hx, hxs⟩ := List.ne_and_not_mem_of_not_mem_cons h
    rw [List.cons_append, expandFrom, if_neg (Ne.symm hx), ih hxs, List.cons_append]

theorem expandFrom_dollar (cs : List Char) :
    expandFrom m 0 ('$' :: cs) = (token m cs).1 ++ expandFrom m 0 (cs.drop (token m cs).2) := by
  rw [expandFrom, if_pos rfl, expandFrom_eq]

theorem length_takeWhile_lt : (cs.takeWhile (· != x)).length < cs.length ↔ x ∈ cs := by
  induction cs with
  | nil => simp
  | cons y ys ih =>
    by_cases hy : y = x
    · simp [hy]
    · simp [hy, Ne.symm hy, ih]

theorem token_name (h : '>' ∈ cs) :
    token m ('<' :: cs) = (m.named (String.ofList (cs.takeWhile (· != '>'))),
      (cs.takeWhile (· != '>')).length + 2) := by
  simp [token, length_takeWhile_lt.mpr h]

theorem token_unclosed (h : '>' ∉ cs) : token m ('<' :: cs) = (['$'], 0) := by
  simp only [token]
  rw [if_neg (mt length_takeWhile_lt.mp h)]

theorem token_digit (ha : a.isDigit = true) :
    token m (a :: rest) = match numbered? m (a :: rest) with
      | some (n, used) => (m.group n, used)
      | none => (['$'], 0) := by
  unfold token
  split <;> first | rfl | (rename_i heq; cases heq; cases ha)

/-- A dollar sign in front of no token stands for itself. -/
theorem token_other (hdollar : ∀ tail, cs ≠ '$' :: tail) (hbefore : ∀ tail, cs ≠ '`' :: tail)
    (hwhole : ∀ tail, cs ≠ '&' :: tail) (hafter : ∀ tail, cs ≠ '\'' :: tail)
    (hname : ∀ tail, cs ≠ '<' :: tail) (hdigits : (cs.take 2).takeWhile Char.isDigit = []) :
    token m cs = (['$'], 0) := by
  rw [token]
  · cases cs with
    | nil => rfl
    | cons x xs =>
      have hx : x.isDigit = false := by
        cases hx : x.isDigit with
        | false => rfl
        | true => simp [hx] at hdigits
      simp [numbered?, digit?, hx]
  all_goals assumption

open Context (number)

theorem numbered?_one (ha : a.isDigit = true) (hrest : ∀ b ∈ rest.head?, b.isDigit = false) :
    numbered? m (a :: rest) = (groupNumber? m (number [a])).map (·, 1) := by
  have htwo : rest.head?.bind digit? = none := by
    cases rest with
    | nil => rfl
    | cons b rest => simpa [digit?] using hrest
  simp [numbered?, digit?, ha, htwo, number]

theorem numbered?_two (ha : a.isDigit = true) (hb : b.isDigit = true) :
    numbered? m (a :: b :: rest) =
      ((groupNumber? m (number [a, b])).map (·, 2)).or
        ((groupNumber? m (number [a])).map (·, 1)) := by
  simp only [numbered?, digit?, ha, hb, number, List.head?_cons, Option.bind_some, if_true,
    List.foldl_cons, List.foldl_nil, Nat.zero_mul, Nat.zero_add, Option.bind_eq_bind]
  cases groupNumber? m ((a.toNat - '0'.toNat) * 10 + (b.toNat - '0'.toNat)) <;> simp

theorem dollar_ne_of_isDigit (ha : a.isDigit = true) : '$' ≠ a := by
  rintro rfl
  cases ha

/-- There are one or two digits in front of a text that begins with a digit. -/
theorem digits_cases (h : (cs.take 2).takeWhile Char.isDigit ≠ []) :
    (∃ a rest, cs = a :: rest ∧ (cs.take 2).takeWhile Char.isDigit = [a] ∧ a.isDigit = true ∧
      ∀ b ∈ rest.head?, b.isDigit = false) ∨
    ∃ a b rest, cs = a :: b :: rest ∧ (cs.take 2).takeWhile Char.isDigit = [a, b] ∧
      a.isDigit = true ∧ b.isDigit = true := by
  cases cs with
  | nil => simp at h
  | cons a rest =>
    by_cases ha : a.isDigit = true
    · cases rest with
      | nil => exact .inl ⟨a, [], rfl, by simp [ha], ha, by simp⟩
      | cons b rest =>
        by_cases hb : b.isDigit = true
        · exact .inr ⟨a, b, rest, rfl, by simp [ha, hb], ha, hb⟩
        · exact .inl ⟨a, b :: rest, rfl, by simp [ha, hb], ha, by simpa using hb⟩
    · simp [ha] at h

/-! ## Expansion by references -/

theorem group_eq_join (m : Match) (n : Nat) : m.group n = m.groups[n - 1]?.join.getD [] := by
  rw [Match.group, Option.bind_id_eq_join]

theorem expandFrom_numberReference (m : Match) {digits : List Char}
    (hdigits : (cs.take 2).takeWhile Char.isDigit = digits) (hne : digits ≠ []) :
    expandFrom m 0 ('$' :: cs) = ((context m).numberReference digits).replacement ++
      expandFrom m 0 (('$' :: cs).drop ((context m).numberReference digits).written.length) := by
  subst hdigits
  rcases digits_cases hne with
    ⟨a, rest, hcs, hdigits, ha, hrest⟩ | ⟨a, b, rest, hcs, hdigits, ha, hb⟩
  · have hplain : expandFrom m 0 (a :: rest) = a :: expandFrom m 0 rest :=
      expandFrom_append [a] (by simp [dollar_ne_of_isDigit ha]) rest
    rw [expandFrom_dollar, hdigits, hcs, token_digit ha, numbered?_one ha hrest, groupNumber?]
    by_cases hone : 0 < number [a] ∧ number [a] ≤ m.groups.length
    · simp [hone, Context.numberReference, context, group_eq_join, Nat.succ_le_iff]
    · simp [hone, Context.numberReference, context, Reference.literal, hplain, Nat.succ_le_iff]
  · have hnumber : number [a, b] = number [a] * 10 + number [b] := by simp [number]
    have hone : expandFrom m 0 (a :: b :: rest) = a :: expandFrom m 0 (b :: rest) :=
      expandFrom_append [a] (by simp [dollar_ne_of_isDigit ha]) (b :: rest)
    have htwo : expandFrom m 0 (a :: b :: rest) = a :: b :: expandFrom m 0 rest :=
      expandFrom_append [a, b] (by simp [dollar_ne_of_isDigit ha, dollar_ne_of_isDigit hb]) rest
    rw [expandFrom_dollar, hdigits, hcs, token_digit ha, numbered?_two ha hb, groupNumber?,
      groupNumber?]
    by_cases hbeyond : m.groups.length < number [a, b]
    · -- The first digit alone is the number.
      by_cases hgroup : 0 < number [a] ∧ number [a] ≤ m.groups.length
      · simp [hbeyond, hgroup, Nat.not_le_of_lt hbeyond, Context.numberReference, context,
          group_eq_join, Nat.succ_le_iff]
      · simp [hbeyond, hgroup, Nat.not_le_of_lt hbeyond, Context.numberReference, context,
          Reference.literal, hone, Nat.succ_le_iff]
    · by_cases hpos : 0 < number [a, b]
      · simp [hbeyond, hpos, Nat.le_of_not_lt hbeyond, Context.numberReference, context,
          group_eq_join, Nat.succ_le_iff]
      · -- Both digits are zeros.
        have hzero : number [a] = 0 := by omega
        simp [hbeyond, hpos, hzero, Context.numberReference, context, Reference.literal, htwo,
          Nat.succ_le_iff]

theorem named_eq {groups : List (String × Option (List Char))}
    (h : (context m).named = some groups) (name : String) :
    m.named name = ((groups.find? (·.1 == name)).bind Prod.snd).getD [] := by
  unfold context at h
  dsimp only at h
  split at h
  · cases h
  · cases h
    have hkey : ((fun entry : String × Option (List Char) => entry.1 == name) ∘
        fun entry : String × Nat => (entry.1, m.groups[entry.2 - 1]?.join)) = (·.1 == name) := rfl
    rw [Match.named, List.find?_map, hkey]
    cases m.names.find? (·.1 == name) with
    | none => rfl
    | some entry => simp [group_eq_join]

/-- The scanner takes off one reference, unless that is a name and the pattern has none. -/
theorem expandFrom_reference (h : opensName (x :: xs) = true → m.names ≠ []) :
    expandFrom m 0 (x :: xs) = ((context m).reference (x :: xs)).replacement ++
      expandFrom m 0 ((x :: xs).drop ((context m).reference (x :: xs)).written.length) := by
  generalize hc : context m = c
  generalize hcs : x :: xs = cs at h ⊢
  have hunclosed : ∀ tail, '>' ∉ tail →
      expandFrom m 0 ('$' :: '<' :: tail) = ['$', '<'] ++ expandFrom m 0 tail := by
    intro tail hmem
    rw [expandFrom_dollar, token_unclosed hmem]
    exact congrArg (['$'] ++ ·) (expandFrom_append ['<'] (by decide) tail)
  fun_cases Context.reference c cs with
  | case1 tail =>
    rw [expandFrom_dollar]
    rfl
  | case2 tail =>
    subst hc
    rw [expandFrom_dollar]
    simp [token, context]
  | case3 tail =>
    subst hc
    rw [expandFrom_dollar]
    simp [token, context]
  | case4 tail =>
    subst hc
    rw [expandFrom_dollar]
    simp [token, context]
  | case5 tail groups hgroups hmem =>
    subst hc
    rw [expandFrom_dollar, token_name hmem, named_eq hgroups]
    simp [Context.nameReference]
  | case6 tail groups hgroups hmem => exact hunclosed tail hmem
  | case7 tail hnamed =>
    subst hc
    refine hunclosed tail fun hmem => h (by simp [opensName, hmem]) ?_
    simpa [context] using hnamed
  | case8 tail hdollar hbefore hwhole hafter hname _ hdigits =>
    rw [expandFrom_dollar, token_other hdollar hbefore hwhole hafter hname hdigits]
    rfl
  | case9 tail _ _ _ _ _ _ hdigits =>
    subst hc
    exact expandFrom_numberReference m rfl hdigits
  | case10 y tail _ _ _ _ _ hy => exact expandFrom_append [y] (by simpa using Ne.symm hy) tail
  | case11 => rfl

/-- Where no name is left out, the expansion is the meaning. -/
theorem expandFrom_eq_substitute (h : m.names = [] → refersByName cs = false) :
    expandFrom m 0 cs = (context m).substitute cs := by
  fun_induction Context.substitute (context m) cs with
  | case1 => rfl
  | case2 x xs reference ih =>
    have hopens : m.names = [] → opensName (x :: xs) = false := by
      intro hnames
      refine Bool.eq_false_iff.mpr fun hopens => ?_
      exact Bool.false_ne_true ((h hnames).symm.trans (refersByName_of_opensName hopens))
    rw [expandFrom_reference fun hopen hnames =>
      Bool.false_ne_true ((hopens hnames).symm.trans hopen), ih fun hnames =>
        (refersByName_reference (context m) (hopens hnames)).symm.trans (h hnames)]

theorem exists_of_opensName (h : opensName cs = true) :
    ∃ tail, cs = '$' :: '<' :: tail ∧ '>' ∈ tail := by
  unfold opensName at h
  split at h
  · exact ⟨_, rfl, by simpa using h⟩
  · cases h

/-- Without named groups, what stands for itself in the meaning is left out of the expansion up to
the closing bracket. -/
theorem expandFrom_of_opensName (hnames : m.names = []) (h : opensName cs = true) :
    ∃ name rest front, cs = '$' :: '<' :: (name ++ '>' :: rest) ∧
      expandFrom m 0 cs = expandFrom m 0 rest ∧
      (context m).substitute cs = '$' :: '<' :: (front ++ '>' :: (context m).substitute rest) := by
  have hnamed : (context m).named = none := if_pos hnames
  obtain ⟨tail, rfl, hmem⟩ := exists_of_opensName h
  obtain ⟨rest, hrest⟩ := Context.eq_takeWhile_append_of_mem hmem
  generalize hname : tail.takeWhile (· != '>') = name at hrest
  have hbracket : '>' ∉ name := by
    intro hname'
    exact absurd (List.all_eq_true.mp List.all_takeWhile _ (hname ▸ hname')) (by decide)
  obtain ⟨front, hfront⟩ := Context.substitute_append_bracket hnamed hbracket rest
  refine ⟨name, rest, front, by rw [hrest], ?_, ?_⟩
  · have hdrop : ('<' :: tail).drop (name.length + 2) = rest := by
      rw [List.drop_succ_cons, hrest, ← List.drop_drop, List.drop_left, List.drop_one,
        List.tail_cons]
    rw [expandFrom_dollar, token_name hmem, hname, hdrop, Match.named, hnames]
    rfl
  · have hliteral : (context m).reference ('$' :: '<' :: tail) = .literal ['$', '<'] := by
      simp [Context.reference, hnamed]
    rw [Context.substitute, hliteral, ← hfront, ← hrest]
    rfl

/-- Without named groups the expansion is no longer than the meaning, and shorter if a name is left
out. -/
theorem length_expandFrom_le (hnames : m.names = []) (cs : List Char) :
    (expandFrom m 0 cs).length + (if refersByName cs then 1 else 0) ≤
      ((context m).substitute cs).length := by
  induction hlength : cs.length using Nat.strongRecOn generalizing cs with
  | ind n ih =>
    cases cs with
    | nil => simp [expandFrom, refersByName]
    | cons x xs =>
      cases hopens : opensName (x :: xs) with
      | true =>
        obtain ⟨name, rest, front, hcs, hexpand, hmeaning⟩ := expandFrom_of_opensName hnames hopens
        have hshorter : rest.length < n := by
          rw [← hlength, hcs]
          simp only [List.length_cons, List.length_append]
          omega
        have hle := ih rest.length hshorter rest rfl
        rw [hexpand, hmeaning]
        simp only [List.length_append, List.length_cons]
        split <;> omega
      | false =>
        obtain ⟨used, left, hwritten, hleft, -⟩ := (context m).exists_written x xs
        have hshorter : left.length < n := by
          rw [← hlength, hleft, List.length_cons, List.length_append]
          omega
        have hle := ih left.length hshorter left rfl
        have hdrop : (x :: xs).drop ((context m).reference (x :: xs)).written.length = left := by
          rw [hwritten, List.length_cons, List.drop_succ_cons, hleft, List.drop_left]
        rw [expandFrom_reference (by simp [hopens]), refersByName_reference (context m) hopens,
          Context.substitute, hdrop, List.length_append, List.length_append]
        omega

/-- **What templates mean.** The expansion is the meaning if and only if the pattern has named
groups or the template does not refer by name. -/
theorem expand_eq_substitute_iff (m : Match) (template : String) :
    expand m template = (context m).substitute template.toList ↔
      (m.names = [] → refersByName template.toList = false) := by
  constructor
  · intro heq hnames
    refine Bool.eq_false_iff.mpr fun hrefers => ?_
    have hlength := length_expandFrom_le hnames template.toList
    rw [hrefers, ← heq, expand, if_pos rfl] at hlength
    exact absurd hlength (Nat.not_succ_le_self _)
  · exact expandFrom_eq_substitute

/-- **A name may get lost.** In a match of a pattern without groups, `$<x>` stands for itself. -/
theorem not_expand_eq_substitute :
    ¬ ∀ (pattern : Program) (source : String) (m : Match),
      pattern.firstMatch? source.toList = some m →
      ∀ template, expand m template = (context m).substitute template.toList := by
  intro h
  have hfound : ((Program.ofText? "b").bind fun p => p.firstMatch? "abc".toList) =
      some ⟨['a'], ['b'], ['c'], [], []⟩ := by
    decide +kernel
  obtain ⟨pattern, -, hmatch⟩ := Option.bind_eq_some_iff.mp hfound
  have hlength := length_expandFrom_le (m := ⟨['a'], ['b'], ['c'], [], []⟩) rfl "$<x>".toList
  rw [← h pattern "abc" _ hmatch "$<x>"] at hlength
  exact absurd hlength (by decide)

end Retrofit.Template

import Retrofit.Proofs.Transform.Template

/-!
# Replacing the first match

**Theorem (`rewrites_firstMatch`).** A replacement rewrites the characters of the first match of its
pattern and leaves all others as they are, and any text can be put in the place of the match: with
every dollar sign written twice it is a template that stands for itself. This holds with every
engine that searches, since a search finds a part of the text (`Search`).

In such a template the scanner comes to a dollar sign only where two of them stand, and it takes
both. So it never sees what follows them as a token, whatever that is (`expandFrom_doubled`).
Nothing is needed of the match but where it stands.
-/

namespace Retrofit

variable {text : List Char} {m : Match} {search : Search}

/-! ## Where a match stands -/

/-- A stretch of a text. -/
structure Span (text : List Char) where
  start : Nat
  stop : Nat
  start_le : start ≤ stop
  stop_le : stop ≤ text.length

/-- The text with something else in place of a stretch. -/
def Span.replace (span : Span text) (inserted : List Char) : List Char :=
  text.take span.start ++ inserted ++ text.drop span.stop

namespace Search

/-- Where the first match stands. -/
def firstSpan? (search : Search) (text : List Char) : Option (Span text) :=
  match h : search.find? text with
  | none => none
  | some m => some {
      start := m.before.length
      stop := m.before.length + m.whole.length
      start_le := Nat.le_add_right ..
      stop_le := by
        have hlength := congrArg List.length (search.text_of_find? h)
        simp only [List.length_append] at hlength
        omega }

theorem firstSpan?_eq_none (h : search.find? text = none) : search.firstSpan? text = none := by
  unfold firstSpan?
  split
  · rfl
  · rename_i m hm
    rw [h] at hm
    cases hm

theorem firstSpan?_of_find? (h : search.find? text = some m) :
    ∃ span, search.firstSpan? text = some span ∧
      ∀ inserted, span.replace inserted = m.before ++ (inserted ++ m.after) := by
  unfold firstSpan?
  split
  · rename_i hnone
    rw [h] at hnone
    cases hnone
  · rename_i found hfound
    obtain rfl : found = m := Option.some.inj (hfound.symm.trans h)
    refine ⟨_, rfl, fun inserted => ?_⟩
    obtain rfl := search.text_of_find? h
    simp [Span.replace, ← List.drop_drop]

/-- The source with a text in place of the first match. Without a match it stays as it is. -/
def rewritten (search : Search) (source text : String) : String :=
  match search.firstSpan? source.toList with
  | none => source
  | some span => String.ofList (span.replace text.toList)

end Search

/-! ## Texts as templates -/

namespace Template

/-- The characters with every dollar sign written twice. -/
def doubled : List Char → List Char
  | [] => []
  | c :: cs => if c = '$' then '$' :: '$' :: doubled cs else c :: doubled cs

/-- The template that stands for a text. -/
def literal (text : String) : String :=
  String.ofList (doubled text.toList)

theorem expandFrom_doubled (m : Match) (cs : List Char) : expandFrom m 0 (doubled cs) = cs := by
  induction cs with
  | nil => rfl
  | cons c cs ih =>
    by_cases hc : c = '$'
    · subst hc
      have htoken : token m ('$' :: doubled cs) = (['$'], 1) := rfl
      rw [doubled, if_pos rfl, expandFrom_dollar, htoken, List.drop_succ_cons, List.drop_zero, ih]
      rfl
    · rw [doubled, if_neg hc, expandFrom, if_neg hc, ih]

theorem expand_literal (m : Match) (text : String) : expand m (literal text) = text.toList := by
  rw [expand, literal, String.toList_ofList, expandFrom_doubled]

end Template

/-! ## Replacements -/

namespace Transform

/-- The first match becomes what the template expands to there. -/
theorem replaceFirst_eq_rewritten {template source text : String}
    (h : ∀ m, search.find? source.toList = some m → Template.expand m template = text.toList) :
    replaceFirst search template source = search.rewritten source text := by
  unfold replaceFirst Search.rewritten
  cases hmatch : search.find? source.toList with
  | none => rw [Search.firstSpan?_eq_none hmatch]
  | some m =>
    obtain ⟨span, hspan, hreplace⟩ := Search.firstSpan?_of_find? hmatch
    simp only [hspan, hreplace, h m hmatch]

theorem exists_replaceFirst_eq_rewritten (search : Search) (template source : String) :
    ∃ text, replaceFirst search template source = search.rewritten source text := by
  cases hmatch : search.find? source.toList with
  | none => exact ⟨"", replaceFirst_eq_rewritten fun m hm => by simp [hmatch] at hm⟩
  | some m =>
    refine ⟨String.ofList (Template.expand m template),
      replaceFirst_eq_rewritten fun found hfound => ?_⟩
    obtain rfl : m = found := Option.some.inj (hmatch.symm.trans hfound)
    rw [String.toList_ofList]

theorem applyWith_replace {engines : Engines} {pattern : String}
    (hpattern : engines.search? pattern = some search) (vendor template source : String) :
    (replace pattern template).applyWith engines vendor source =
      .ok (replaceFirst search template source) := by
  unfold applyWith
  simp only [hpattern]

/-- **One match is rewritten, and into any text.** Nothing outside of the first match changes, and a
text with doubled dollar signs is put there as it is. -/
theorem rewrites_firstMatch {engines : Engines} {pattern : String}
    (hpattern : engines.search? pattern = some search) (vendor source : String) :
    (∀ template, ∃ text, (replace pattern template).applyWith engines vendor source =
        .ok (search.rewritten source text)) ∧
      ∀ text, (replace pattern (Template.literal text)).applyWith engines vendor source =
        .ok (search.rewritten source text) := by
  constructor
  · intro template
    obtain ⟨text, htext⟩ := exists_replaceFirst_eq_rewritten search template source
    exact ⟨text, by rw [applyWith_replace hpattern, htext]⟩
  · intro text
    rw [applyWith_replace hpattern]
    exact congrArg _ (replaceFirst_eq_rewritten fun m _ => Template.expand_literal m text)

/-- The match stands in the middle, its pattern is a group, and the text is full of tokens. -/
theorem rewrites_firstMatch_tokens :
    ∃ search, Engines.own.search? "(b+)" = some search ∧
      search.rewritten "abbc" "$1$&$" = "a$1$&$c" ∧
      (replace "(b+)" "$$1$$&$$").apply "" "abbc" = .ok "a$1$&$c" := by
  have hcompiled : (Engines.own.search? "(b+)").map (·.rewritten "abbc" "$1$&$") =
      some "a$1$&$c" := by
    decide +kernel
  obtain ⟨search, hpattern, hrewritten⟩ := Option.map_eq_some_iff.mp hcompiled
  refine ⟨search, hpattern, hrewritten, ?_⟩
  have hliteral : Template.literal "$1$&$" = "$$1$$&$$" := by decide
  have happly := (rewrites_firstMatch hpattern "" "abbc").2 "$1$&$"
  rwa [hrewritten, hliteral] at happly

end Transform

end Retrofit

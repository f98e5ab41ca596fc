import Retrofit.Text.Blank

/-!
# White space around a text

A text of which the first and the last character are not blank is found again when white space is
put around it (`trim_append`), and what is found has white space around it (`exists_trim`). Both
come from where a text is cut by a property of characters (`cut_append`).
-/

namespace Retrofit.Text

variable {before core after cs : List Char}

/-- Nothing but white space. -/
def IsBlank (cs : List Char) : Prop :=
  ∀ c ∈ cs, isBlank c

theorem IsBlank.append {ds : List Char} (hcs : IsBlank cs) (hds : IsBlank ds) :
    IsBlank (cs ++ ds) :=
  List.forall_mem_append.mpr ⟨hcs, hds⟩

theorem IsBlank.reverse (h : IsBlank cs) : IsBlank cs.reverse :=
  fun c hc => h c (List.mem_reverse.mp hc)

/-- A text is cut in front of the first character that does not belong to its beginning. -/
theorem cut_append (p : Char → Bool) {front back : List Char} (hfront : ∀ c ∈ front, p c)
    (hback : ∀ c ∈ back.head?, p c = false) :
    (front ++ back).takeWhile p = front ∧ (front ++ back).dropWhile p = back := by
  rw [List.takeWhile_append_of_pos hfront, List.dropWhile_append_of_pos hfront]
  cases back with
  | nil => simp
  | cons c back => simp [hback c rfl]

theorem isBlank_takeWhile (cs : List Char) : IsBlank (cs.takeWhile isBlank) :=
  List.all_eq_true.mp List.all_takeWhile

/-- Trimming takes white space away and nothing else. -/
theorem exists_trim (cs : List Char) :
    ∃ before after, IsBlank before ∧ IsBlank after ∧ cs = before ++ trim cs ++ after := by
  refine ⟨cs.takeWhile isBlank, ((trimStart cs).reverse.takeWhile isBlank).reverse,
    isBlank_takeWhile cs, (isBlank_takeWhile _).reverse, ?_⟩
  have hend : trim cs ++ ((trimStart cs).reverse.takeWhile isBlank).reverse = trimStart cs := by
    rw [trim, trimEnd, ← List.reverse_append, List.takeWhile_append_dropWhile, List.reverse_reverse]
  rw [List.append_assoc, hend, trimStart, List.takeWhile_append_dropWhile]

theorem isBlank_nil : IsBlank [] :=
  List.forall_mem_nil _

/-- White space around a text that neither begins nor ends with it is taken away. -/
theorem trim_eq (hcs : cs = before ++ core ++ after) (hbefore : IsBlank before)
    (hafter : IsBlank after) (hne : core ≠ []) (hfirst : isBlank (core.head hne) = false)
    (hlast : isBlank (core.getLast hne) = false) : trim cs = core := by
  have hstart : trimStart cs = core ++ after := by
    rw [hcs, trimStart, List.append_assoc, (cut_append isBlank hbefore fun c hc => ?_).2]
    rw [List.head?_append, List.head?_eq_some_head hne, Option.some_or] at hc
    exact Option.some.inj hc ▸ hfirst
  have hend : (after.reverse ++ core.reverse).dropWhile isBlank = core.reverse := by
    refine (cut_append isBlank hafter.reverse fun c hc => ?_).2
    rw [List.head?_reverse, List.getLast?_eq_some_getLast hne] at hc
    exact Option.some.inj hc ▸ hlast
  rw [trim, hstart, trimEnd, List.reverse_append, hend, List.reverse_reverse]

end Retrofit.Text

import Retrofit.Proofs.Script.Grammar.Statement

/-!
# Scripts keep their source

**Theorem (`text_parse?`).** Let the nodes that a parser finds lie in order in their text, and the
statements of each block between its braces (`Parser.WellFormed`). Then every source that the
parser accepts has a script, and the script prints as the source.

The parser of scripts is such a parser (`wellFormed_sourceTree?`). It starts behind a first line
that begins with `#!` and reads statements up to the end of the text; its readers advance at every
depth, so the nodes that they find lie in order. What `ofText?` reads therefore prints as its
source (`text_of_ofText?`).
-/

namespace Retrofit.Script

instance (limit depth : Nat) : (nested limit depth).Advancing := by
  induction depth with
  | zero =>
    exact ⟨fun _ => inferInstanceAs (Advances failure), fun _ => inferInstanceAs (Advances failure),
      inferInstanceAs (Advances failure), inferInstanceAs (Advances failure)⟩
  | succ depth ih =>
    exact ⟨fun mode => inferInstanceAs (Advances (readExpression (nested limit depth) mode)),
      fun mode => inferInstanceAs (Advances (readOperand (nested limit depth) mode)),
      inferInstanceAs (Advances (readStatement (nested limit depth))),
      inferInstanceAs (Advances (readElement (nested limit depth)))⟩

instance : Advances readOutermost := by
  refine advances_ahead_bind fun c => ?_
  exact Advances.advancesFrom c

instance (limit : Nat) : (outermost limit).Advancing where
  expression := (inferInstance : (nested limit 0).Advancing).expression
  operand := (inferInstance : (nested limit 0).Advancing).operand
  statement := inferInstanceAs (Advances readOutermost)
  markup := (inferInstance : (nested limit 0).Advancing).markup

theorem skipInterpreterLine_suffix (cs : List Char) : skipInterpreterLine cs <:+ cs := by
  unfold skipInterpreterLine
  split
  · rename_i rest hgap
    have hrest : rest <:+ skipGap false 0 cs :=
      hgap ▸ cons_suffix_of_suffix (List.suffix_cons '!' rest)
    exact ((List.dropWhile_suffix _).trans hrest).trans (skipGap_suffix false 0 cs)
  · exact List.suffix_refl cs

/-- The nodes of a script lie in order within its source. -/
theorem wellFormed_sourceTree? : Parser.WellFormed sourceTree? := by
  intro cs root h
  obtain ⟨⟨nodes, c⟩, hrun, h⟩ := Option.bind_eq_some_iff.mp h
  dsimp only at h
  split at h
  · rename_i hend
    cases h
    have hfits : Cursor.Fits ⟨skipInterpreterLine cs, cs.length, []⟩ :=
      (skipInterpreterLine_suffix cs).length_le
    have hlists := run_readStatements hfits hrun
    have hplace : c.place = cs.length := by
      have hlen := hlists.reaches.length
      rw [Cursor.place, List.isEmpty_iff.mp hend, hlen]
      rfl
    have hfront : Ordered 0 (Cursor.place ⟨skipInterpreterLine cs, cs.length, []⟩) [] :=
      Nat.zero_le _
    exact hplace ▸ hfront.append hlists.ordered
  · cases h

/-! ## Printing a script -/

/-- A script prints as its source, and every source that the parser accepts has a script. -/
theorem text_parse? {parser : Parser} (hparser : parser.WellFormed) (source : String) :
    (parse? parser source).map Block.text = (parser source.toList).map fun _ => source := by
  cases hroot : parser source.toList with
  | none =>
    rw [parse?_eq_none hroot]
    rfl
  | some root =>
    obtain ⟨script, hscript, htext⟩ := exists_parse? hparser hroot
    rw [hscript, Option.map_some, Option.map_some, htext]

theorem text_parse?_commented :
    Parser.WellFormed sourceTree? ∧
      (parse? sourceTree? "// café\n(function (a) \x7b /* b */ a.b = 1 \x7d)(this)\n").map
          Block.text =
        some "// café\n(function (a) \x7b /* b */ a.b = 1 \x7d)(this)\n" := by
  refine ⟨wellFormed_sourceTree?, (text_parse? wellFormed_sourceTree? _).trans ?_⟩
  decide +kernel

/-- A script that was read prints as its source. -/
theorem text_of_ofText? {source : String} {script : Block} (h : ofText? source = some script) :
    script.text = source := by
  cases hroot : sourceTree? source.toList with
  | none =>
    have hnone := (parse?_eq_none hroot).symm.trans h
    cases hnone
  | some root =>
    obtain ⟨found, hfound, htext⟩ := exists_parse? wellFormed_sourceTree? hroot
    have hsame := hfound.symm.trans h
    cases hsame
    exact htext

end Retrofit.Script

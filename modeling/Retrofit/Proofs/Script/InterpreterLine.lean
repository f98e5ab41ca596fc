import Retrofit.Proofs.Except
import Retrofit.Proofs.Script.Comments
import Retrofit.Proofs.Script.Frame
import Retrofit.Proofs.Script.Stepwise

/-!
# The interpreter line

A first line that begins with `#!` tells what runs a script. It is kept as a comment is: in the gap
in front of the first statement, or in the text that ends a script without one.

**Theorem (`begins_iff_keepsFront`).** The line stays in front of the body if and only if no edit
inserts at the front of the body and nothing is put into a body without a statement. Then the script
prints with the line as its first. Otherwise it begins with a statement, behind white space at most,
and what is printed need not be a script any more (`not_always_begins`).

A script is read with the line in front (`begins_of_parse?`) wherever the statements of a script
begin below the line (`Parser.BeginsBelow`). An edit either keeps the gap in front
of the body, or it puts a statement there behind white space (`front_of_apply`). White space stays
there whatever follows (`Block.OpensBlank.applyAll`), so the theorem is an induction on the edits.
-/

namespace Retrofit.Script

variable {script edited between : Block} {edit : Edit} {edits : List Edit} {line source : String}
  {parser : Parser}

/-! ## Lines in front -/

/-- A line that begins with `#!`. -/
structure IsInterpreterLine (line : String) : Prop where
  mark : ['#', '!'] <+: line.toList
  single : '\n' ∉ line.toList

/-- The text begins with a line, and nothing else stands on it. -/
def BeginsWithLine (line text : String) : Prop :=
  ∃ behind, text = line ++ behind ∧ (behind = "" ∨ ∃ rest, behind = "\n" ++ rest)

namespace Block

/-- What stands in front of the first statement, or all there is, begins with a line. -/
def Begins (line : String) : Block → Prop
  | .done trailing => BeginsWithLine line trailing
  | .next gap _ _ => ∃ comments, gap = line ++ ("\n" ++ comments)

/-- Only white space stands in front of the first statement. -/
def OpensBlank : Block → Prop
  | .done _ => False
  | .next gap _ _ => ∀ c ∈ gap.toList, Text.isBlank c

theorem Begins.text (h : script.Begins line) : BeginsWithLine line script.text := by
  cases script with
  | done trailing => exact h
  | next gap first rest =>
    obtain ⟨comments, rfl⟩ := h
    refine ⟨"\n" ++ comments ++ (first.text ++ rest.text), ?_, .inr ⟨_, String.append_assoc⟩⟩
    simp only [Block.text, String.append_assoc]

theorem OpensBlank.text (h : script.OpensBlank) :
    ∃ blank first behind, (∀ c ∈ blank.toList, Text.isBlank c) ∧ script.head? = some first ∧
      script.text = blank ++ (first.text ++ behind) := by
  cases script with
  | done trailing => exact h.elim
  | next gap first rest => exact ⟨gap, first, rest.text, h, rfl, rfl⟩

/-- An interpreter line is no white space. -/
theorem OpensBlank.not_begins (hline : IsInterpreterLine line) (h : script.OpensBlank) :
    ¬ script.Begins line := by
  cases script with
  | done trailing => exact h.elim
  | next gap first rest =>
    rintro ⟨comments, rfl⟩
    obtain ⟨command, hcommand⟩ := hline.mark
    have hmark : '#' ∈ (line ++ ("\n" ++ comments)).toList := by
      simp [← hcommand]
    exact absurd (h '#' hmark) (by decide)

end Block

/-! ## Reading -/

/-- The statements of a script with an interpreter line begin below the line. -/
def Parser.BeginsBelow (parser : Parser) : Prop :=
  ∀ line source root, IsInterpreterLine line → BeginsWithLine line source →
    parser source.toList = some root →
    ∀ node ∈ root.children, node.isStatement → line.toList.length < node.start

/-- A script that is read from a text with an interpreter line has the line in front. -/
theorem begins_of_parse? (hparser : parser.WellFormed) (hbelow : parser.BeginsBelow)
    (hline : IsInterpreterLine line) (hbegins : BeginsWithLine line source)
    (hread : parse? parser source = some script) : script.Begins line := by
  obtain ⟨root, hroot, hlift⟩ := Option.bind_eq_some_iff.mp hread
  cases script with
  | done trailing =>
    obtain ⟨found, hfound, htext⟩ := exists_parse? hparser hroot
    have hsame : found = .done trailing := Option.some.inj (hfound.symm.trans hread)
    have htrailing : trailing = source := by rw [← htext, hsame, Block.text]
    rw [← htrailing] at hbegins
    exact hbegins
  | next gap first rest =>
    obtain ⟨front, node, behind, hnodes, -, hkind, hgap⟩ := Block.exists_node_of_ofNodes? hlift
    have hmem : node ∈ root.children := hnodes ▸ List.mem_append_right _ List.mem_cons_self
    have hstart := hbelow line source root hline hbegins hroot node hmem hkind
    have hstop := (length_of_slice? hgap).2.1
    obtain ⟨behind, rfl, rfl | ⟨below, rfl⟩⟩ := hbegins
    · rw [String.append_empty] at hstop
      omega
    · obtain ⟨n, hn⟩ := Nat.exists_eq_add_of_lt hstart
      refine ⟨String.ofList (below.toList.take n), ?_⟩
      rw [slice?_eq (Nat.zero_le _) hstop, Option.some.injEq, hn, List.drop_zero, Nat.sub_zero,
        String.toList_append, Nat.add_assoc, List.take_length_add_append] at hgap
      rw [← hgap, String.ofList_append, String.ofList_toList]
      exact congrArg (line ++ ·) (String.toList_inj.mp (by simp))

/-! ## Edits -/

/-- The gap in front of the body stays. -/
inductive SameFront : Block → Block → Prop where
  | next (gap : String) (first first' : Statement) (rest rest' : Block) :
      SameFront (.next gap first rest) (.next gap first' rest')

theorem SameFront.begins (h : SameFront script edited) (hbegins : script.Begins line) :
    edited.Begins line := by
  cases h
  exact hbegins

theorem SameFront.opensBlank (h : SameFront script edited) (hblank : script.OpensBlank) :
    edited.OpensBlank := by
  cases h
  exact hblank

theorem sameFront_of_change? {f : Statement → Option Statement} {i : Nat}
    (h : script.change? f i = some edited) : SameFront script edited := by
  cases script with
  | done trailing => cases i <;> cases h
  | next gap first rest =>
    cases i with
    | zero =>
      obtain ⟨first', -, rfl⟩ := Option.map_eq_some_iff.mp h
      exact .next ..
    | succ i =>
      obtain ⟨rest', -, rfl⟩ := Option.map_eq_some_iff.mp h
      exact .next ..

theorem opensBlank_unshift (added : Statement) (script : Block) :
    (script.unshift added).OpensBlank := by
  cases script with
  | done trailing => simp [Block.unshift, Block.OpensBlank, Text.isBlank]
  | next gap first rest =>
    obtain ⟨blank, newline, hblank, -, hgap⟩ := openGap_eq gap
    rw [Block.unshift, hgap]
    exact hblank

theorem ne_nil_of_snippet {text : String} {added : List Statement}
    (h : snippet parser text = .ok added) :
    added ≠ [] := by
  obtain ⟨block, -, h⟩ := bind_eq_ok.mp h
  split at h
  · cases h
  · rename_i hne
    cases h
    exact hne

/-- An edit keeps the gap in front of the body, or it puts a statement there behind white space. -/
theorem front_of_apply (h : apply parser edit script = .ok edited) :
    ((∀ text, edit ≠ .unshift [] text) ∧ SameFront script edited) ∨
      (((∃ text, edit = .unshift [] text) ∨ script.statements = []) ∧ edited.OpensBlank) := by
  cases edit with
  | unshift list text =>
    obtain ⟨added, others, -, hchange⟩ := apply_unshift_eq_ok.mp h
    -- The body itself, a statement, and a list below a statement.
    rcases list with _ | ⟨i, _ | ⟨j, list⟩⟩
    · cases hchange
      exact .inr ⟨.inl ⟨text, rfl⟩, opensBlank_unshift added script⟩
    · cases hchange
    · exact .inl ⟨by simp, sameFront_of_change? hchange⟩
  | push text =>
    obtain ⟨added, hsnippet, rfl⟩ := apply_push_eq_ok.mp h
    cases script with
    | next gap first rest => exact .inl ⟨by simp, .next ..⟩
    | done trailing =>
      refine .inr ⟨.inr rfl, ?_⟩
      cases added with
      | nil => exact absurd rfl (ne_nil_of_snippet hsnippet)
      | cons first others => simp [Block.append, Block.OpensBlank, Text.isBlank]
  | assign address text substitutions =>
    obtain ⟨-, added, copy, node, -, -, -, hchange⟩ := apply_assign_eq_ok.mp h
    rcases address with _ | ⟨i, _ | ⟨j, address⟩⟩
    · cases hchange
    · exact .inl ⟨by simp, sameFront_of_change? hchange⟩
    · exact .inl ⟨by simp, sameFront_of_change? hchange⟩

theorem Block.OpensBlank.applyAll (hblank : script.OpensBlank)
    (h : applyAll parser edits script = .ok edited) : edited.OpensBlank := by
  induction edits generalizing script with
  | nil =>
    cases h
    exact hblank
  | cons edit edits ih =>
    obtain ⟨between, hfirst, hrest⟩ := bind_eq_ok.mp h
    obtain ⟨-, hsame⟩ | ⟨-, hblank'⟩ := front_of_apply hfirst
    · exact ih (hsame.opensBlank hblank) hrest
    · exact ih hblank' hrest

/-- The edits put nothing at the front of the body: none inserts there, and in a body without a
statement nothing is put at all. -/
def KeepsFront (script : Block) (edits : List Edit) : Prop :=
  (∀ text, .unshift [] text ∉ edits) ∧ (script.statements ≠ [] ∨ edits = [])

theorem keepsFront_cons (hedit : ∀ text, edit ≠ .unshift [] text)
    (hsame : SameFront script between) :
    KeepsFront script (edit :: edits) ↔ KeepsFront between edits := by
  cases hsame
  simp [KeepsFront, Block.statements, (hedit _).symm]

theorem not_keepsFront_cons (h : (∃ text, edit = .unshift [] text) ∨ script.statements = []) :
    ¬ KeepsFront script (edit :: edits) := by
  rintro ⟨hunshift, hbody⟩
  obtain ⟨text, rfl⟩ | hempty := h
  · exact hunshift text (List.mem_cons_self ..)
  · obtain hbody | hnil := hbody
    · exact hbody hempty
    · cases hnil

/-- Edits one after the other keep what stands in front of the body, or leave white space there. -/
theorem front_of_applyAll (h : applyAll parser edits script = .ok edited) :
    (KeepsFront script edits ∧ ∀ line, script.Begins line → edited.Begins line) ∨
      (¬ KeepsFront script edits ∧ edited.OpensBlank) := by
  induction edits generalizing script with
  | nil =>
    cases h
    exact .inl ⟨⟨fun _ => List.not_mem_nil, .inr rfl⟩, fun _ => id⟩
  | cons edit edits ih =>
    obtain ⟨between, hfirst, hrest⟩ := bind_eq_ok.mp h
    obtain ⟨hedit, hsame⟩ | ⟨hfront, hblank⟩ := front_of_apply hfirst
    · rw [keepsFront_cons hedit hsame]
      refine (ih hrest).imp_left fun ⟨hkeeps, hbegins⟩ => ⟨hkeeps, fun line hline => ?_⟩
      exact hbegins line (hsame.begins hline)
    · exact .inr ⟨not_keepsFront_cons hfront, hblank.applyAll hrest⟩

/-- **The interpreter line stays first as long as nothing is put in front of the body.** -/
theorem begins_iff_keepsFront (hparser : parser.WellFormed) (hbelow : parser.BeginsBelow)
    (hline : IsInterpreterLine line) (hbegins : BeginsWithLine line source)
    (hread : parse? parser source = some script)
    (hedits : applyAll parser edits script = .ok edited) :
    (edited.Begins line ↔ KeepsFront script edits) ∧
      (KeepsFront script edits → BeginsWithLine line edited.text) ∧
      (¬ KeepsFront script edits → ∃ blank first behind, (∀ c ∈ blank.toList, Text.isBlank c) ∧
        edited.head? = some first ∧ edited.text = blank ++ (first.text ++ behind)) := by
  obtain ⟨hkeeps, hstays⟩ | ⟨hkeeps, hblank⟩ := front_of_applyAll hedits
  · have hedited := hstays line (begins_of_parse? hparser hbelow hline hbegins hread)
    exact ⟨iff_of_true hedited hkeeps, fun _ => hedited.text, fun hnot => absurd hkeeps hnot⟩
  · exact ⟨iff_of_false (hblank.not_begins hline) hkeeps, fun h => absurd h hkeeps,
      fun _ => hblank.text⟩

/-! ## The grammar -/

/-- The reader passes over the line and stops in front of the line break. -/
theorem skipInterpreterLine_append (hline : IsInterpreterLine line) {behind : List Char}
    (hbehind : behind = [] ∨ ∃ rest, behind = '\n' :: rest) :
    skipInterpreterLine (line.toList ++ behind) = behind := by
  obtain ⟨command, hcommand⟩ := hline.mark
  have hsingle := hline.single
  rw [← hcommand] at hsingle ⊢
  have hrest : ∀ c ∈ command, (c != '\n') = true := by
    intro c hc
    rw [bne_iff_ne]
    rintro rfl
    exact hsingle (List.mem_append_right _ hc)
  have hskip : skipInterpreterLine (['#', '!'] ++ command ++ behind) =
      (command ++ behind).dropWhile (· != '\n') := rfl
  rw [hskip, List.dropWhile_append_of_pos hrest]
  obtain rfl | ⟨rest, rfl⟩ := hbehind
  · rfl
  · rfl

/-- A script that the grammar reads from a text with an interpreter line has the line in front. -/
theorem begins_of_ofText? (hline : IsInterpreterLine line) (hbegins : BeginsWithLine line source)
    (hread : ofText? source = some script) : script.Begins line := by
  have htext := text_of_ofText? hread
  subst htext
  cases script with
  | done trailing => exact hbegins
  | next gap first rest =>
    obtain ⟨behind, hbehind, hend⟩ := hbegins
    have hend' : behind.toList = [] ∨ ∃ rest, behind.toList = '\n' :: rest := by
      obtain rfl | ⟨rest, rfl⟩ := hend
      · exact .inl rfl
      · exact .inr ⟨rest.toList, by simp⟩
    have hstands := ofText?_iff_stands.mp hread
    rw [hbehind, String.toList_append, skipInterpreterLine_append hline hend'] at hstands
    obtain ⟨mayFollow, hfirst, -⟩ := Block.stands_next.mp hstands
    have hgap := skipGap_of_statementAhead? hfirst
    have htakes := length_lt_of_statementAhead? hfirst
    obtain hempty | ⟨others, hothers⟩ := hend'
    · rw [hempty] at htakes
      cases htakes
    · -- The line break belongs to the gap, so the statement stands behind it.
      have hspace : skipGap false 0 ('\n' :: others) = skipGap false 0 others := rfl
      rw [hothers, hspace] at hgap
      obtain ⟨comments, hcomments⟩ := skipGap_suffix false 0 others
      rw [hgap] at hcomments
      have hwhole : gap.toList ++ (first.text.toList ++ rest.text.toList) =
          (line ++ ("\n" ++ String.ofList comments)).toList ++
            (first.text.toList ++ rest.text.toList) := by
        have htext := congrArg String.toList hbehind
        rw [Block.text, String.toList_append, String.toList_append, String.toList_append, hothers,
          ← hcomments] at htext
        simpa using htext
      exact ⟨String.ofList comments, String.toList_inj.mp (List.append_cancel_right hwhole)⟩

theorem beginsBelow_sourceTree? : Parser.BeginsBelow sourceTree? := by
  intro line source root hline hbegins hroot node hmem hkind
  obtain ⟨script, hread, -⟩ := exists_parse? wellFormed_sourceTree? hroot
  have hlift : Block.ofNodes? source.toList source.toList.length 0 root.children = some script := by
    unfold parse? at hread
    rwa [hroot] at hread
  have hscript := begins_of_ofText? hline hbegins hread
  cases script with
  | done trailing =>
    have hnone := (Block.forall₂_ofNodes? hlift).length_eq
    have hpos := List.length_pos_of_mem (List.mem_filter.mpr ⟨hmem, hkind⟩)
    rw [hnone] at hpos
    cases hpos
  | next gap first rest =>
    obtain ⟨comments, rfl⟩ := hscript
    obtain ⟨front, first, behind, hnodes, hfront, -, hgap⟩ := Block.exists_node_of_ofNodes? hlift
    have hordered := wellFormed_sourceTree? _ _ hroot
    have hlength := (length_of_slice? hgap).2.2
    rw [String.toList_append, List.length_append, String.toList_append, List.length_append,
      Nat.sub_zero] at hlength
    have hbreak : "\n".toList.length = 1 := rfl
    have hfirst : first.start ≤ node.start := by
      rw [hnodes] at hordered hmem
      rcases List.mem_append.mp hmem with hmem | hmem
      · exact absurd hkind (hfront node hmem)
      · exact hordered.start_le hmem
    omega

/-- A command-line tool. -/
def tool : Block :=
  .next "#!/usr/bin/env node\n// tool\n"
    (.block "(function () \x7b" (.next " " (.plain "a();") (.done " ")) (.plain "\x7d)();"))
    (.done "\n")

/-- Edits of all kinds, in the function body and behind it, leave the line where it is. -/
theorem begins_iff_keepsFront_tool :
    let source := "#!/usr/bin/env node\n// tool\n(function () \x7b a(); \x7d)();\n"
    let edits : List Edit := [.unshift [0, 0] "b();", .assign [0, 0, 1] "c();" [], .push "d();"]
    IsInterpreterLine "#!/usr/bin/env node" ∧ BeginsWithLine "#!/usr/bin/env node" source ∧
      Parser.WellFormed sourceTree? ∧ Parser.BeginsBelow sourceTree? ∧
      parse? sourceTree? source = some tool ∧
      ∃ edited, applyAll sourceTree? edits tool = .ok edited ∧
        edited.text =
          "#!/usr/bin/env node\n// tool\n(function () \x7b b(); c(); \x7d)();\nd();\n" ∧
        BeginsWithLine "#!/usr/bin/env node" edited.text := by
  intro source edits
  have hline : IsInterpreterLine "#!/usr/bin/env node" := ⟨by decide, by decide⟩
  have hbegins : BeginsWithLine "#!/usr/bin/env node" source :=
    ⟨"\n// tool\n(function () \x7b a(); \x7d)();\n", by decide,
      .inr ⟨"// tool\n(function () \x7b a(); \x7d)();\n", by decide⟩⟩
  have hread : parse? sourceTree? source = some tool := by decide +kernel
  have hedited : (applyAll sourceTree? edits tool).map Block.text =
      .ok "#!/usr/bin/env node\n// tool\n(function () \x7b b(); c(); \x7d)();\nd();\n" := by
    decide +kernel
  have hkeeps : KeepsFront tool edits := ⟨by simp [edits], .inl nofun⟩
  cases happly : applyAll sourceTree? edits tool with
  | error error =>
    rw [happly] at hedited
    cases hedited
  | ok edited =>
    rw [happly] at hedited
    exact ⟨hline, hbegins, wellFormed_sourceTree?, beginsBelow_sourceTree?, hread, edited, rfl,
      Except.ok.inj hedited, (begins_iff_keepsFront wellFormed_sourceTree? beginsBelow_sourceTree?
        hline hbegins hread happly).2.1 hkeeps⟩

/-- The line does not always stay first: a statement that is inserted at the front of the body
stands in front of the line. -/
theorem not_always_begins :
    ¬ ∀ line source script edits edited, IsInterpreterLine line → BeginsWithLine line source →
      parse? sourceTree? source = some script → applyAll sourceTree? edits script = .ok edited →
      BeginsWithLine line edited.text := by
  intro hall
  have hread : parse? sourceTree? "#!/usr/bin/env node\na();\n" =
      some (.next "#!/usr/bin/env node\n" (.plain "a();") (.done "\n")) := by decide +kernel
  have hedits : applyAll sourceTree? [.unshift [] "b();"]
      (.next "#!/usr/bin/env node\n" (.plain "a();") (.done "\n")) =
        .ok (.next "" (.plain "b();")
          (.next "\n#!/usr/bin/env node\n" (.plain "a();") (.done "\n"))) := by decide +kernel
  obtain ⟨behind, hbehind, -⟩ := hall "#!/usr/bin/env node" _ _ _ _ ⟨by decide, by decide⟩
    ⟨"\na();\n", by decide, .inr ⟨"a();\n", by decide⟩⟩ hread hedits
  have hfirst := congrArg (fun text : String => text.toList.head?) hbehind
  simp [Block.text, Statement.text] at hfirst

/-- What is printed then is no script any more. -/
example : ofText? "b();\n#!/usr/bin/env node\na();\n" = none := by decide +kernel

end Retrofit.Script

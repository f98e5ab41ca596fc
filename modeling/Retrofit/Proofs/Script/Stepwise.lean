import Retrofit.Proofs.Script.Comments
import Retrofit.Proofs.Script.Consumption

/-!
# Scripts are read statement by statement

**Theorem (`ofText?_iff_stands`).** A script is what is read from its text if and only if it stands
(`Block.Stands`): behind each gap, its statement is what is read in front of the text that follows,
and behind the last statement there is only a gap.

What is read as a statement does not depend on the text in front of it (`statementAt?_append`). The
reader moves on with more text in front, and so does the source tree, from which the same statement
is lifted. The theorem then follows by induction, from the script to its source tree over the
statements, and back over the steps of the reader, of which there are enough because every statement
takes text (`Block.Stands.size_le`).
-/

namespace Retrofit.Script

open Reader

variable {c c' : Cursor} {text cs rest : List Char} {mayFollow mayFollow' : Bool}
  {nodes : List SourceNode} {statement : Statement} {block : Block}

/-! ## One statement -/

/-- The statement in front of `cs`, an end of a text, whether a comment in markup style may follow
it, and the text behind it. -/
def statementAt? (text cs : List Char) (mayFollow : Bool) :
    Option (Statement × Bool × List Char) :=
  match (readNext (outermost 0) [] mayFollow).run ⟨cs, text.length, []⟩ with
  | some (.yield (node :: _, mayFollow), behind) =>
    (node.lift? text).map (·, mayFollow, behind.rest)
  | _ => none

/-- The statement in front of a text, with nothing in front of that. -/
def statementAhead? (cs : List Char) (mayFollow : Bool) : Option (Statement × Bool × List Char) :=
  statementAt? cs cs mayFollow

/-- What is read as a statement does not depend on the text in front of it. -/
theorem statementAt?_append (front cs : List Char) (mayFollow : Bool) :
    statementAt? (front ++ cs) cs mayFollow = statementAhead? cs mayFollow := by
  have hcursor : (⟨cs, (front ++ cs).length, []⟩ : Cursor) =
      Cursor.shift front.length ⟨cs, cs.length, []⟩ := by
    rw [Cursor.shift, List.length_append, Nat.add_comm]
    rfl
  have hshift : (readNext (outermost 0) (shiftAll front.length []) mayFollow).run
      (Cursor.shift front.length ⟨cs, cs.length, []⟩) = _ :=
    run_readNext_shift (Nat.le_refl _) front.length
  have hlift : ∀ node : SourceNode,
      (node.shift front.length).lift? (front ++ cs) = node.lift? cs := by
    intro node
    unfold SourceNode.lift?
    rw [SourceNode.shift_start]
    exact Statement.ofNode?_shift front cs node node.start _ _ fun place => by
      rw [SourceNode.shift_stop, slice?_shift]
  rw [shiftAll] at hshift
  unfold statementAhead? statementAt?
  rw [hcursor, hshift]
  cases (readNext (outermost 0) [] mayFollow).run ⟨cs, cs.length, []⟩ with
  | none => rfl
  | some result =>
    obtain ⟨next, behind⟩ := result
    rcases next with ⟨_ | ⟨node, others⟩, mayFollow'⟩ | ⟨_ | ⟨node, others⟩, mayFollow'⟩
    · rfl
    · rfl
    · rfl
    · exact congrArg (Option.map _) (hlift node)

/-- Behind a statement the cursor differs only in what is left. -/
theorem Passes.exists_rest {n : Nat} {node : SourceNode} (h : Passes ⟨cs, n, []⟩ node c') :
    ∃ rest, c' = ⟨rest, n, []⟩ := by
  have hlength : c'.length = n := h.reaches.length
  have hblocks : c'.blocks = [] := h.blocks
  refine ⟨c'.rest, ?_⟩
  rw [← hlength, ← hblocks]

/-- A statement that is found in a text is what the cursor has moved over. -/
theorem statementAt?_eq_some (hlen : cs.length ≤ text.length) :
    statementAt? text cs mayFollow = some (statement, mayFollow', rest) ↔
      ∃ node, (readNext (outermost 0) [] mayFollow).run ⟨cs, text.length, []⟩ =
          some (.yield ([node], mayFollow'), ⟨rest, text.length, []⟩) ∧
        node.lift? text = some statement ∧
        Passes ⟨skipGap false 0 cs, text.length, []⟩ node ⟨rest, text.length, []⟩ := by
  have hfits : Cursor.Fits ⟨cs, text.length, []⟩ := hlen
  unfold statementAt?
  constructor
  · intro h
    split at h
    · rename_i node others mayFollow₁ c' hrun
      obtain ⟨s, hlift, hsome⟩ := Option.map_eq_some_iff.mp h
      cases hsome
      obtain ⟨hdone, -⟩ | ⟨_, _, hnext, hpasses⟩ := readNext_cases hfits hrun
      · cases hdone
      · cases hnext
        obtain ⟨rest, rfl⟩ := hpasses.exists_rest
        exact ⟨node, hrun, hlift, hpasses⟩
    · cases h
  · rintro ⟨node, hrun, hlift, -⟩
    rw [hrun]
    exact congrArg (Option.map _) hlift

/-- Behind the gap stand the statement and the text behind it. -/
theorem skipGap_of_statementAhead? (h : statementAhead? cs mayFollow =
    some (statement, mayFollow', rest)) : skipGap false 0 cs = statement.text.toList ++ rest := by
  obtain ⟨node, -, hlift, hpasses⟩ := (statementAt?_eq_some (Nat.le_refl _)).mp h
  obtain ⟨gap, hgap⟩ := skipGap_suffix false 0 cs
  obtain ⟨part, hpart⟩ := hpasses.reaches.rest
  dsimp only at hpart
  have hcs : cs = gap ++ (part ++ rest) := by rw [hpart, hgap]
  have hlen := congrArg List.length hcs
  simp only [List.length_append] at hlen
  have hstart : node.start = gap.length := by
    rw [hpasses.start, Cursor.place]
    dsimp only
    rw [← hpart, List.length_append]
    omega
  have hstop : node.stop = gap.length + part.length := by
    rw [hpasses.stop, Cursor.place]
    dsimp only
    omega
  have htext := hpasses.wellFormed.text_of_lift? (by omega) hlift
  rw [SourceNode.text?, hstart, hstop, hcs, slice?_middle, Option.some.injEq] at htext
  rw [← hpart, ← htext, String.toList_ofList]

theorem commentLength?_pos {markup : Bool} {n : Nat} (h : commentLength? markup cs = some n) :
    0 < n ∧ cs ≠ [] := by
  unfold commentLength? at h
  split at h
  · cases h
    simp
  · obtain ⟨m, -, rfl⟩ := Option.map_eq_some_iff.mp h
    simp
  · split_ifs at h
    cases h
    simp
  · split_ifs at h
    cases h
    simp
  · cases h

/-- A statement takes text. -/
theorem length_lt_of_statementAhead? (h : statementAhead? cs mayFollow =
    some (statement, mayFollow', rest)) : rest.length < cs.length := by
  obtain ⟨node, hrun, -, -⟩ := (statementAt?_eq_some (Nat.le_refl _)).mp h
  have hgap := (skipGap_suffix false 0 cs).length_le
  refine Nat.lt_of_lt_of_le ?_ hgap
  rw [run_readNext] at hrun
  dsimp only at hrun
  split at hrun
  · rename_i n hcomment
    have hcomment : commentLength? true (skipGap false 0 cs) = some n := by
      split at hcomment
      · exact hcomment
      · cases hcomment
    obtain ⟨hn, hne⟩ := commentLength?_pos hcomment
    have hlen := List.length_pos_iff.mpr hne
    cases hrun
    rw [List.length_drop]
    omega
  · split at hrun
    · cases hrun
    · obtain ⟨⟨_, c'⟩, hnode, hnext⟩ := Option.map_eq_some_iff.mp hrun
      rw [run_readNode_eq] at hnode
      obtain ⟨⟨_, behind⟩, hstatement, hbehind⟩ := Option.map_eq_some_iff.mp hnode
      have hrest : rest = behind.rest :=
        (congrArg (·.2.rest) hnext).symm.trans (congrArg (·.2.rest) hbehind).symm
      rw [hrest]
      exact Consumes.consumesFrom (p := readOutermost) ⟨skipGap false 0 cs, cs.length, []⟩ hgap _ _
        hstatement

/-! ## Scripts that stand -/

/-- The statements of a script are what is read from a text, one after another, and behind the last
there is only a gap. `mayFollow` tells whether the text may begin with a comment in markup style. -/
def Block.Stands : Bool → List Char → Block → Prop
  | _, cs, .done _ => skipGap false 0 cs = []
  | mayFollow, cs, .next _ statement rest => ∃ mayFollow',
    statementAhead? cs mayFollow = some (statement, mayFollow', rest.text.toList) ∧
      rest.Stands mayFollow' rest.text.toList

theorem Block.stands_next {gap : String} {tail : Block} :
    (Block.next gap statement tail).Stands mayFollow cs ↔ ∃ mayFollow',
      statementAhead? cs mayFollow = some (statement, mayFollow', tail.text.toList) ∧
        tail.Stands mayFollow' tail.text.toList :=
  Iff.rfl

/-- A script that stands has no more statements than characters. -/
theorem Block.Stands.size_le : (block : Block) → ∀ {mayFollow : Bool} {cs : List Char},
    block.Stands mayFollow cs → block.size ≤ cs.length
  | .done _, _, _, _ => Nat.zero_le _
  | .next _ _ tail, _, _, ⟨_, hstatement, htail⟩ => by
    have hless := length_lt_of_statementAhead? hstatement
    have hsize := Block.Stands.size_le tail htail
    rw [Block.size]
    omega

/-! ## Reading a script -/

/-- The next statement is the same whatever was read in front of it. -/
theorem run_readNext_outermost (limit : Nat) (read : List SourceNode) (mayFollow : Bool)
    (c : Cursor) : (readNext (outermost limit) read mayFollow).run c =
      ((readNext (outermost 0) [] mayFollow).run c).map
        (Prod.map (moveStep (Prod.map (· ++ read) id)) id) := by
  rw [run_readNext, run_readNext]
  dsimp only
  split
  · rfl
  · split
    · rfl
    · have hnode : readNode (outermost limit) = readNode (outermost 0) := rfl
      rw [hnode, Option.map_map]
      rfl

/-- The end of a text, from where a list of nodes begins on, is the text of the list. -/
theorem Block.toList_text_of_ofNodes? {front : List Char} (htext : front ++ rest = text)
    (hordered : Ordered front.length text.length nodes)
    (h : Block.ofNodes? text text.length front.length nodes = some block) :
    block.text.toList = rest := by
  obtain ⟨lifted, hlifted, hslice⟩ :=
    Block.spans_ofNodes? nodes hordered (Ordered.le nodes hordered)
    (Nat.le_refl _) fun node hmem _ => ⟨(hordered.of_mem hmem).1, (hordered.of_mem hmem).2.2⟩
  have hsame : lifted = block := Option.some.inj (hlifted.symm.trans h)
  rw [slice?_end htext, Option.some.injEq, hsame] at hslice
  rw [← hslice, String.toList_ofList]

/-- A statement begins behind what was in front of it, and what is left of the text begins where the
statement ends. -/
theorem Passes.exists_front {front : List Char} {node : SourceNode} (htext : front ++ cs = text)
    (h : Passes ⟨skipGap false 0 cs, text.length, []⟩ node ⟨rest, text.length, []⟩) :
    front.length ≤ node.start ∧ ∃ front', front' ++ rest = text ∧ node.stop = front'.length := by
  obtain ⟨passed, hpassed⟩ := h.reaches.rest.trans (skipGap_suffix false 0 cs)
  dsimp only at hpassed
  have hgap := (skipGap_suffix false 0 cs).length_le
  have hlen : front.length + cs.length = text.length := by rw [← htext, List.length_append]
  have hfront : (front ++ passed) ++ rest = text := by rw [List.append_assoc, hpassed, htext]
  have hlen' : (front ++ passed).length + rest.length = text.length := by
    rw [← List.length_append, hfront]
  refine ⟨?_, front ++ passed, hfront, ?_⟩
  · rw [h.start, Cursor.place]
    dsimp only
    omega
  · rw [h.stop, Cursor.place]
    dsimp only
    omega

/-- The statements that are read from the end of a text are those of a script that stands there. -/
theorem stands_of_run {limit fuel : Nat} {front : List Char} {read : List SourceNode}
    (htext : front ++ cs = text)
    (h : (iterate (fun (nodes, mayFollow) => readNext (outermost limit) nodes mayFollow) fuel
      (read, mayFollow)).run ⟨cs, text.length, []⟩ = some ((nodes, mayFollow'), c'))
    (hend : c'.rest = []) :
    ∃ more, nodes = more.reverse ++ read ∧ Ordered front.length text.length more ∧
      ∀ place block, Block.ofNodes? text text.length place more = some block →
        block.Stands mayFollow cs := by
  induction fuel generalizing cs front read mayFollow with
  | zero => cases h
  | succ fuel ih =>
    have hlen : front.length + cs.length = text.length := by rw [← htext, List.length_append]
    have hfits : Cursor.Fits ⟨cs, text.length, []⟩ := hlen ▸ Nat.le_add_left _ _
    rw [run_iterate_succ] at h
    dsimp only at h
    rw [run_readNext_outermost] at h
    cases hrun : (readNext (outermost 0) [] mayFollow).run ⟨cs, text.length, []⟩ with
    | none =>
      rw [hrun] at h
      cases h
    | some result =>
      obtain ⟨next, c₁⟩ := result
      rw [hrun] at h
      obtain ⟨rfl, rfl⟩ | ⟨node, mayFollow₁, rfl, hpasses⟩ := readNext_cases hfits hrun
      · cases h
        refine ⟨[], rfl, ?_, fun place block hblock => ?_⟩
        · show front.length ≤ text.length
          omega
        · obtain ⟨trailing, -, rfl⟩ := Option.map_eq_some_iff.mp hblock
          exact hend
      · obtain ⟨rest, rfl⟩ := hpasses.exists_rest
        obtain ⟨hstart, front', htext', hstop⟩ := hpasses.exists_front htext
        obtain ⟨more, hnodes, hordered, hmore⟩ := ih htext' h
        refine ⟨node :: more, ?_, ⟨hstart, hpasses.wellFormed, hstop ▸ hordered⟩,
          fun place block hblock => ?_⟩
        · rw [hnodes, List.reverse_cons, List.append_assoc]
        · obtain ⟨gap, statement, tail, -, hlift, htail, rfl⟩ :=
            (Block.ofNodes?_cons_eq_some hpasses.isStatement).mp hblock
          rw [hstop] at htail
          have hrest := Block.toList_text_of_ofNodes? htext' hordered htail
          have hstatement := (statementAt?_eq_some hfits).mpr ⟨node, hrun, hlift, hpasses⟩
          rw [← htext, statementAt?_append] at hstatement
          rw [Block.stands_next, hrest]
          exact ⟨mayFollow₁, hstatement, hmore _ tail htail⟩

/-- A script that stands at the end of a text is read there. -/
theorem run_of_stands (limit : Nat) : (block : Block) → (front : List Char) →
    (read : List SourceNode) → ∀ {mayFollow : Bool} {text cs : List Char} {fuel : Nat},
    block.Stands mayFollow cs → front ++ block.text.toList = text → cs <:+ block.text.toList →
    block.size < fuel →
    ∃ more mayFollow' c', (iterate (fun (nodes, mayFollow) =>
        readNext (outermost limit) nodes mayFollow) fuel (read, mayFollow)).run
          ⟨cs, text.length, []⟩ = some ((more.reverse ++ read, mayFollow'), c') ∧ c'.rest = [] ∧
      Block.ofNodes? text text.length front.length more = some block
  | .done trailing, front, read, mayFollow, text, cs, fuel + 1, h, htext, hcs, _ => by
    have hnone : (if mayFollow then commentLength? true [] else none) = none := by
      cases mayFollow <;> rfl
    have hgap : skipGap false 0 cs = [] := h
    refine ⟨[], mayFollow, ⟨[], text.length, []⟩, ?_, rfl, ?_⟩
    · rw [run_iterate_succ]
      dsimp only
      rw [run_readNext]
      dsimp only
      rw [hgap, hnone]
      rfl
    · have hlen := congrArg List.length htext
      rw [List.length_append] at hlen
      have hmax : max text.length front.length = text.length := by omega
      rw [Block.ofNodes?, hmax, slice?_end htext, String.ofList_toList]
      rfl
  | .next gap statement tail, front, read, mayFollow, text, cs, fuel + 1,
      ⟨mayFollow₁, hstatement, htail⟩, htext, hcs, hfuel => by
    have hfits : cs.length ≤ text.length :=
      Nat.le_trans hcs.length_le (htext ▸ (List.suffix_append front _).length_le)
    obtain ⟨lead, hlead⟩ := hcs
    have hgap := skipGap_of_statementAhead? hstatement
    rw [← statementAt?_append (front ++ lead), List.append_assoc, hlead, htext] at hstatement
    obtain ⟨node, hrun, hlift, hpasses⟩ := (statementAt?_eq_some hfits).mp hstatement
    rw [Block.text, String.toList_append, String.toList_append] at htext hlead
    have htext' : (front ++ (gap.toList ++ statement.text.toList)) ++ tail.text.toList = text := by
      simp only [← htext, List.append_assoc]
    obtain ⟨more, mayFollow', c', hrest, hend, hnodes⟩ := run_of_stands limit tail _ (node :: read)
      htail htext' (List.suffix_refl _) (Nat.lt_of_succ_lt_succ hfuel)
    have hlen := congrArg List.length htext
    have hlen' := congrArg List.length hgap
    simp only [List.length_append] at hlen hlen'
    have hstart : node.start = front.length + gap.toList.length := by
      rw [hpasses.start, Cursor.place]
      dsimp only
      omega
    have hstop : node.stop = (front ++ (gap.toList ++ statement.text.toList)).length := by
      rw [hpasses.stop, Cursor.place]
      simp only [List.length_append]
      omega
    refine ⟨node :: more, mayFollow', c', ?_, hend, ?_⟩
    · rw [run_iterate_succ]
      dsimp only
      rw [run_readNext_outermost, hrun, List.reverse_cons, List.append_assoc]
      exact hrest
    · have hslice := slice?_middle front gap.toList (statement.text.toList ++ tail.text.toList)
      rw [htext, ← hstart, String.ofList_toList] at hslice
      exact (Block.ofNodes?_cons_eq_some hpasses.isStatement).mpr
        ⟨gap, statement, tail, hslice, hlift, hstop ▸ hnodes, rfl⟩

/-- **Scripts are read statement by statement.** -/
theorem ofText?_iff_stands : ofText? block.text = some block ↔
    block.Stands true (skipInterpreterLine block.text.toList) := by
  have hline := skipInterpreterLine_suffix block.text.toList
  constructor
  · intro h
    obtain ⟨root, hroot, hblock⟩ := Option.bind_eq_some_iff.mp h
    obtain ⟨⟨nodes, c'⟩, hrun, hroot⟩ := Option.bind_eq_some_iff.mp hroot
    dsimp only at hroot
    split at hroot
    · rename_i hend
      cases hroot
      obtain ⟨⟨nodes, mayFollow'⟩, c', hiterate, hnodes⟩ := run_bind_eq_some.mp hrun
      cases hnodes
      obtain ⟨line, hline⟩ := hline
      obtain ⟨more, rfl, -, hstands⟩ := stands_of_run hline hiterate (List.isEmpty_iff.mp hend)
      rw [List.append_nil, List.reverse_reverse] at hblock
      exact hstands 0 block hblock
    · cases hroot
  · intro h
    have hsize := Nat.lt_succ_of_le (Nat.le_trans h.size_le hline.length_le)
    obtain ⟨more, mayFollow', c', hrun, hend, hblock⟩ :=
      run_of_stands block.text.toList.length block [] [] h rfl hline hsize
    rw [List.append_nil] at hrun
    have hread : (readStatements (outermost block.text.toList.length)).run
        ⟨skipInterpreterLine block.text.toList, block.text.toList.length, []⟩ =
          some (more.reverse, c') :=
      run_bind_eq_some.mpr ⟨(more.reverse, mayFollow'), c', hrun, rfl⟩
    have hroot : sourceTree? block.text.toList =
        some ⟨"program", true, 0, block.text.toList.length, more⟩ := by
      refine Option.bind_eq_some_iff.mpr ⟨(more.reverse, c'), hread, ?_⟩
      dsimp only
      rw [hend, List.reverse_reverse]
      rfl
    exact Option.bind_eq_some_iff.mpr ⟨_, hroot, hblock⟩

end Retrofit.Script

import Retrofit.Proofs.Script.Reader
import Retrofit.Script.Source

/-!
# Nested constructs advance

The grammar is given level by level, and the readers of a level advance if those of the level below
do (`Nested.Advancing`). A reader that is only put together from others advances by their instances.

**Blocks.** A statement is read with no blocks in front of the cursor; those that are found become
the children of its node, and the blocks from before are put back (`run_readNode`). The nodes of
many statements lie one behind the other (`Lists`), and a block with its braces becomes one node
behind the blocks from before.

**Text in front.** The nodes move on with the places. The node of a block begins one place in front
of its first statement, so the brace that was read has to be there (`shift_blockNode`).
-/

namespace Retrofit.Script

open Reader

/-- All readers for nested constructs advance. -/
class Nested.Advancing (g : Nested) : Prop where
  expression : ∀ mode, Advances (g.expression mode)
  operand : ∀ mode, Advances (g.operand mode)
  statement : Advances g.statement
  markup : Advances g.markup

attribute [instance] Nested.Advancing.expression Nested.Advancing.operand
  Nested.Advancing.statement Nested.Advancing.markup

variable (g : Nested) [g.Advancing] (mode : Mode)

/-! ## Values and items -/

instance : Advances (readValue g mode) := by
  unfold readValue
  infer_instance

instance : Advances (readMoreValues g mode) := by
  refine advances_iterate (fun _ => advances_ahead_bind fun c => ?_) g.limit ()
  split
  · rename_i hplace
    exact .moveTo_bind ((List.suffix_cons _ _).trans (endsIn_symbolPlace? mode hplace))
  · exact Advances.advancesFrom c

instance : Advances (readValues g mode) := by
  unfold readValues
  infer_instance

instance : Advances (readCondition g) := by
  unfold readCondition
  infer_instance

instance (items : Items) : Advances (readItem g items) := by
  unfold readItem
  infer_instance

instance (close : String) : Advances (readItems g close) := by
  unfold readItems
  infer_instance

instance : Advances (readArray g) := by
  unfold readArray
  infer_instance

instance : Advances (readParameters g) := by
  unfold readParameters
  infer_instance

instance : Advances (readArguments g) := by
  unfold readArguments
  infer_instance

/-! ## Blocks -/

variable {g} {c c' : Cursor} {nodes : List SourceNode}

omit [g.Advancing] in
/-- What is read as a node is a statement without the blocks around it. -/
theorem run_readNode_eq (c : Cursor) : (readNode g).run c =
    (g.statement.run { c with blocks := [] }).map fun (mayFollow, behind) =>
      ((⟨"statement", true, c.place, behind.place, behind.blocks.reverse⟩, mayFollow),
        { behind with blocks := c.blocks }) := by
  show (g.statement.run { c with blocks := [] }).bind _ = _
  cases g.statement.run { c with blocks := [] } <;> rfl

/-- The cursor moves over the node of a statement, and has the same blocks behind it. -/
structure Passes (c : Cursor) (node : SourceNode) (c' : Cursor) : Prop where
  reaches : c.Reaches c'
  blocks : c'.blocks = c.blocks
  isStatement : node.isStatement
  wellFormed : node.WellFormed
  start : node.start = c.place
  stop : node.stop = c'.place

/-- The node of a statement spans what has been read, and the blocks around it stay. -/
theorem run_readNode {node : SourceNode} {mayFollow : Bool} (hfits : c.Fits)
    (h : (readNode g).run c = some ((node, mayFollow), c')) : Passes c node c' := by
  rw [run_readNode_eq] at h
  obtain ⟨⟨_, c₂⟩, hstatement, h⟩ := Option.map_eq_some_iff.mp h
  cases h
  have hreach : Cursor.Reaches { c with blocks := [] } c₂ :=
    Nested.Advancing.statement.reaches hfits hstatement
  obtain ⟨added, hblocks, hadded⟩ := hreach.blocks
  refine ⟨⟨hreach.rest, hreach.length, [], rfl, hreach.place_le⟩, rfl, ?_, ⟨?_, ?_⟩, rfl, rfl⟩
  · exact (by decide : SourceNode.isStatement ⟨"statement", true, 0, 0, []⟩ = true)
  · rw [hblocks, List.append_nil]
    exact hadded
  · intro hkind
    exact absurd hkind (by decide)

/-- The node of a statement moves on with more text in front. -/
theorem run_readNode_shift (hfits : c.Fits) (k : Nat) : (readNode g).run (c.shift k) =
    ((readNode g).run c).map (Prod.map (Prod.map (SourceNode.shift k) id) (Cursor.shift k)) := by
  have hshifts : g.statement.run { c.shift k with blocks := [] } = _ :=
    Nested.Advancing.statement.shifts g.statement (c := { c with blocks := [] }) hfits k
  rw [run_readNode_eq, run_readNode_eq, hshifts]
  cases hbehind : g.statement.run { c with blocks := [] } with
  | none => rfl
  | some result =>
    have hreach : Cursor.Reaches { c with blocks := [] } result.2 :=
      Nested.Advancing.statement.reaches hfits hbehind
    have hplace := (hreach.fits hfits).place_shift k
    have hnode : ∀ blocks : List SourceNode, (SourceNode.shift k
        ⟨"statement", true, c.place, result.2.place, blocks⟩) =
        ⟨"statement", true, (c.shift k).place, (result.2.shift k).place, shiftAll k blocks⟩ := by
      intro blocks
      rw [SourceNode.shift, hfits.place_shift, hplace]
    simp only [Option.map_some, Prod.map, hnode, shiftAll_reverse]
    rfl

/-- The nodes, the last in front, lie in order between two cursors with the same blocks. -/
structure Lists (c c' : Cursor) (nodes : List SourceNode) : Prop where
  reaches : c.Reaches c'
  blocks : c'.blocks = c.blocks
  ordered : Ordered c.place c'.place nodes.reverse

namespace Lists

theorem nil (c : Cursor) : Lists c c [] :=
  ⟨.refl c, rfl, Nat.le_refl _⟩

theorem moved (h : Lists c c' nodes) {cs : List Char} (hcs : cs <:+ c'.rest) :
    Lists c { c' with rest := cs } nodes := by
  have hmoved := Cursor.Reaches.moved hcs
  refine ⟨h.reaches.trans hmoved, h.blocks, ?_⟩
  have hend : Ordered c'.place (Cursor.place { c' with rest := cs }) [] := hmoved.place_le
  simpa using h.ordered.append hend

theorem cons (h : Lists c c' nodes) {c'' : Cursor} {node : SourceNode} (hreach : c'.Reaches c'')
    (hblocks : c''.blocks = c'.blocks) (hnode : node.WellFormed) (hstart : c'.place ≤ node.start)
    (hstop : node.stop ≤ c''.place) : Lists c c'' (node :: nodes) := by
  refine ⟨h.reaches.trans hreach, hblocks.trans h.blocks, ?_⟩
  rw [List.reverse_cons]
  exact h.ordered.append ⟨hstart, hnode, hstop⟩

end Lists

omit [g.Advancing] in
/-- What the next statement of a list is: a comment in markup style, none at all, or what the reader
for statements finds behind the gap. -/
theorem run_readNext (c : Cursor) (nodes : List SourceNode) (mayFollow : Bool) :
    (readNext g nodes mayFollow).run c =
      let c₁ : Cursor := { c with rest := skipGap false 0 c.rest }
      match if mayFollow then commentLength? true c₁.rest else none with
      | some n =>
        let c₂ : Cursor := { c₁ with rest := c₁.rest.drop n }
        some (.yield (⟨"html_comment", true, c₁.place, c₂.place, []⟩ :: nodes, true), c₂)
      | none =>
        if c₁.rest.isEmpty || c₁.rest.head? == some '}' then some (.done (nodes, mayFollow), c₁)
        else ((readNode g).run c₁).map fun ((node, mayFollow), c₂) =>
          (.yield (node :: nodes, mayFollow), c₂) := by
  unfold readNext
  show StateT.run (match (if mayFollow then commentLength? true (skipGap false 0 c.rest) else none)
    with | some n => _ | none => _) { c with rest := skipGap false 0 c.rest } = _
  dsimp only
  split
  · rfl
  · split
    · rfl
    · show ((readNode g).run _).bind _ = _
      cases (readNode g).run { c with rest := skipGap false 0 c.rest } <;> rfl

/-- Behind the gap either the list ends, or the cursor moves over the next statement. -/
theorem readNext_cases {mayFollow : Bool} {next : ForInStep (List SourceNode × Bool)}
    (hfits : c.Fits) (h : (readNext g nodes mayFollow).run c = some (next, c')) :
    (next = .done (nodes, mayFollow) ∧ c' = { c with rest := skipGap false 0 c.rest }) ∨
      ∃ node mayFollow', next = .yield (node :: nodes, mayFollow') ∧
        Passes { c with rest := skipGap false 0 c.rest } node c' := by
  have hfits₁ := (Cursor.Reaches.moved (skipGap_suffix false 0 c.rest)).fits hfits
  rw [run_readNext] at h
  dsimp only at h
  split at h
  · rename_i n hcomment
    cases h
    have hmoved : Cursor.Reaches { c with rest := skipGap false 0 c.rest }
        { c with rest := (skipGap false 0 c.rest).drop n } := .moved (List.drop_suffix n _)
    refine .inr ⟨_, _, rfl, hmoved, rfl, ?_, ⟨hmoved.place_le, ?_⟩, rfl, rfl⟩
    · exact (by decide : SourceNode.isStatement ⟨"html_comment", true, 0, 0, []⟩ = true)
    · intro hkind
      exact absurd hkind (by decide)
  · split at h
    · cases h
      exact .inl ⟨rfl, rfl⟩
    · obtain ⟨⟨⟨node, mayFollow'⟩, c₂⟩, hnode, hnext⟩ := Option.map_eq_some_iff.mp h
      cases hnext
      exact .inr ⟨node, mayFollow', rfl, run_readNode hfits₁ hnode⟩

/-- The next statement of a list lies behind those in front of it. -/
theorem Lists.readNext {mayFollow : Bool} {next : ForInStep (List SourceNode × Bool)}
    {c₀ : Cursor} (hfits : c₀.Fits) (h : Lists c₀ c nodes)
    (hrun : (readNext g nodes mayFollow).run c = some (next, c')) : Lists c₀ c' next.value.1 := by
  have hgap := h.moved (skipGap_suffix false 0 c.rest)
  obtain ⟨rfl, rfl⟩ | ⟨node, mayFollow', rfl, hpasses⟩ :=
    readNext_cases (h.reaches.fits hfits) hrun
  · exact hgap
  · exact hgap.cons hpasses.reaches hpasses.blocks hpasses.wellFormed
      (Nat.le_of_eq hpasses.start.symm) (Nat.le_of_eq hpasses.stop)

/-- The nodes of statements lie in order in what has been read. -/
theorem run_readStatements (hfits : c.Fits) (h : (readStatements g).run c = some (nodes, c')) :
    Lists c c' nodes := by
  obtain ⟨⟨nodes', mayFollow⟩, c₁, hiterate, h⟩ := run_bind_eq_some.mp h
  cases h
  refine run_iterate (fun a c' => Lists c c' a.1) ?_ (.nil c) hiterate
  rintro ⟨nodes, mayFollow⟩ c₁ next c₂ hlists hrun
  exact hlists.readNext hfits hrun

/-- The next statement moves on with more text in front. -/
theorem run_readNext_shift {mayFollow : Bool} (hfits : c.Fits) (k : Nat) :
    (readNext g (shiftAll k nodes) mayFollow).run (c.shift k) =
      ((readNext g nodes mayFollow).run c).map
        (Prod.map (moveStep (Prod.map (shiftAll k) id)) (Cursor.shift k)) := by
  have hmoved : ∀ cs, cs <:+ c.rest → Cursor.Fits { c with rest := cs } := fun cs hcs =>
    (Cursor.Reaches.moved hcs).fits hfits
  have hgap := hmoved _ (skipGap_suffix false 0 c.rest)
  have hrest : (c.shift k).rest = c.rest := rfl
  have hcursor : ∀ cs, { c.shift k with rest := cs } = Cursor.shift k { c with rest := cs } :=
    fun cs => rfl
  rw [run_readNext, run_readNext, hrest]
  simp only [hcursor]
  split
  · rename_i n hcomment
    have hbehind := hmoved _ ((List.drop_suffix n _).trans (skipGap_suffix false 0 c.rest))
    rw [hgap.place_shift, hbehind.place_shift]
    rfl
  · split
    · rfl
    · rw [run_readNode_shift hgap]
      cases (readNode g).run { c with rest := skipGap false 0 c.rest } <;> rfl

/-- The nodes of statements move on with more text in front. -/
theorem run_readStatements_shift (hfits : c.Fits) (k : Nat) : (readStatements g).run (c.shift k) =
    ((readStatements g).run c).map (Prod.map (shiftAll k) (Cursor.shift k)) := by
  refine run_bind_shift (m := Prod.map (shiftAll k) id) ?_ fun _ _ _ => rfl
  refine run_iterate_shift (m := Prod.map (shiftAll k) id) (fun a c' => Lists c c' a.1) ?_ ?_
    (a := ([], true)) (.nil c)
  · rintro ⟨nodes, mayFollow⟩ c₁ hlists
    exact run_readNext_shift (hlists.reaches.fits hfits) k
  · rintro ⟨nodes, mayFollow⟩ c₁ next c₂ hlists hrun
    exact hlists.readNext hfits hrun

theorem wellFormed_blockNode {opened closed : Nat} (h : Ordered opened closed nodes.reverse) :
    (blockNode opened closed nodes).WellFormed := by
  have hbrace : ∀ {start stop : Nat} {kind : String}, start ≤ stop → kind ≠ blockKind →
      SourceNode.WellFormed ⟨kind, false, start, stop, []⟩ :=
    fun hle hkind => ⟨hle, fun h => absurd h hkind⟩
  refine ⟨⟨Nat.le_refl _, hbrace (Nat.sub_le _ _) (by decide), h.append ⟨Nat.le_refl _,
    hbrace (Nat.le_succ _) (by decide), Nat.le_refl _⟩⟩, fun _ opening closing hbraces => ?_⟩
  have hpair : opened = opening ∧ closed = closing := by
    simpa [braces?, List.find?_append] using hbraces
  obtain ⟨rfl, rfl⟩ := hpair
  refine ⟨h.le, fun child hmem hchild => ?_⟩
  rcases List.mem_append.mp hmem with hmem | hmem
  · rcases List.mem_cons.mp hmem with rfl | hmem
    · simp [SourceNode.isStatement] at hchild
    · obtain ⟨hstart, -, hstop⟩ := h.of_mem hmem
      exact ⟨hstart, hstop⟩
  · rw [List.mem_singleton.mp hmem] at hchild
    simp [SourceNode.isStatement] at hchild

/-- The node of a block moves on, if there is room for its brace in front. -/
theorem shift_blockNode {opened : Nat} (h : 1 ≤ opened) (closed : Nat) (nodes : List SourceNode)
    (k : Nat) : (blockNode opened closed nodes).shift k =
      blockNode (opened + k) (closed + k) (shiftAll k nodes) := by
  have hopening : opened + k - 1 = opened - 1 + k := by omega
  simp [blockNode, SourceNode.shift, shiftAll, shiftAll_append, shiftAll_reverse, hopening,
    Nat.add_right_comm]

omit [g.Advancing] in
theorem run_place_shift (hfits : c.Fits) (k : Nat) :
    place.run (c.shift k) = (place.run c).map (Prod.map (· + k) (Cursor.shift k)) := by
  show some ((c.shift k).place, _) = some (c.place + k, _)
  rw [hfits.place_shift]

/-- A block with its braces becomes one node behind the blocks from before, and takes the place of
both braces. -/
theorem run_readBraces {filled : Bool} (hfits : c.Fits)
    (h : (readBraces g).run c = some (filled, c')) : c.Reaches c' ∧ c.place + 2 ≤ c'.place := by
  obtain ⟨_, c₁, hopen, h⟩ := run_bind_eq_some.mp h
  obtain ⟨hreach₁, hblocks₁, hplace₁⟩ := run_symbol hfits hopen
  obtain ⟨_, _, hplace, h⟩ := run_bind_eq_some.mp h
  cases hplace
  obtain ⟨nodes, c₂, hstatements, h⟩ := run_bind_eq_some.mp h
  have hlists := run_readStatements (hreach₁.fits hfits) hstatements
  have hreach₂ := hreach₁.trans hlists.reaches
  obtain ⟨_, _, hplace, h⟩ := run_bind_eq_some.mp h
  cases hplace
  obtain ⟨_, c₃, hclose, h⟩ := run_bind_eq_some.mp h
  obtain ⟨hreach₃, hblocks₃, hplace₃⟩ := run_symbol (hreach₂.fits hfits) hclose
  obtain ⟨_, _, hmodify, h⟩ := run_bind_eq_some.mp h
  cases hmodify
  cases h
  have hreach := hreach₂.trans hreach₃
  refine ⟨⟨hreach.rest, hreach.length, [blockNode c₁.place c₂.place nodes], ?_, ?_⟩, ?_⟩
  · show _ :: c₃.blocks = _ :: c.blocks
    rw [hblocks₃, hlists.blocks, hblocks₁]
  · exact ⟨Nat.le_sub_of_add_le hplace₁, wellFormed_blockNode hlists.ordered, hplace₃⟩
  · have hbetween := hlists.reaches.place_le
    have hopening : c.place + 1 ≤ c₁.place := hplace₁
    have hclosing : c₂.place + 1 ≤ c₃.place := hplace₃
    show c.place + 2 ≤ c₃.place
    omega

instance : Advances (readBraces g) := by
  refine ⟨fun c => ⟨fun hfits filled c' h => (run_readBraces hfits h).1, fun hfits k => ?_⟩⟩
  refine run_bind_shift (Advances.shifts (symbol _) hfits k) fun _ c₁ hopen => ?_
  obtain ⟨hreach₁, -, hplace₁⟩ := run_symbol hfits hopen
  refine run_bind_shift (run_place_shift (hreach₁.fits hfits) k) fun opened c₂ hplace => ?_
  cases hplace
  refine run_bind_shift (run_readStatements_shift (hreach₁.fits hfits) k)
    fun nodes c₂ hstatements => ?_
  have hreach₂ := (run_readStatements (hreach₁.fits hfits) hstatements).reaches
  have hfits₂ := hreach₂.fits (hreach₁.fits hfits)
  refine run_bind_shift (run_place_shift hfits₂ k) fun closed c₃ hplace => ?_
  cases hplace
  refine run_bind_shift (Advances.shifts (symbol _) hfits₂ k) fun _ c₃ _ => ?_
  -- The brace that was read is the room in front of the block.
  have hroom : 1 ≤ c₁.place := Nat.le_trans (Nat.le_add_left 1 _) hplace₁
  have hempty : (shiftAll k nodes).isEmpty = nodes.isEmpty := by
    rw [shiftAll_eq_map, List.isEmpty_map]
  rw [hempty, ← shift_blockNode hroom]
  rfl

instance (commentEnds : Bool) : Advances (readBody g commentEnds) := by
  unfold readBody
  infer_instance

end Retrofit.Script

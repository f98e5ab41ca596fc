import Mathlib.Tactic.SplitIfs
import Retrofit.Script.SourceTree

/-!
# Lifting loses nothing

A lifted script is cut out of its text at the places that its source tree names. Where the nodes of
the tree lie in order (`Ordered`) and the statements of a block between its braces, every cut runs
forward and begins where the one in front of it ends, so the pieces make up the text again.

**Outermost blocks.** The recursion that lifts a statement carries along what is behind a node. It
cuts at the outermost blocks one after another (`Statement.ofNode?_eq_cut?`).

**The cut.** `Block.Spans` and `Statement.Spans` say that a piece was lifted and prints as the text
between two places. Lists of statements, statements and the nodes inside them are lifted by one
mutual recursion, and their spans are shown along it.

**Main result.** `exists_parse?`: a source that a parser with well-formed trees accepts has a
script, and the script prints as the source.
-/

namespace Retrofit.Script

variable {text : List Char} {node : SourceNode} {nodes rest : List SourceNode}
  {start stop place a b c : Nat}

/-! ## Well-formed source trees -/

mutual

/-- The children of a node lie in order within its span, and the statements of a block between its
braces. -/
def SourceNode.WellFormed : SourceNode → Prop
  | ⟨kind, _, start, stop, children⟩ =>
    Ordered start stop children ∧
      (kind = blockKind → ∀ opening closing, braces? children = some (opening, closing) →
        opening ≤ closing ∧ ∀ child ∈ children, child.isStatement →
          opening ≤ child.start ∧ child.stop ≤ closing)

/-- Well-formed nodes lie in order between two places, and do not overlap. -/
def Ordered (start stop : Nat) : List SourceNode → Prop
  | [] => start ≤ stop
  | node :: rest => start ≤ node.start ∧ node.WellFormed ∧ Ordered node.stop stop rest

end

/-- The nodes that a parser finds in a text lie in order within the text. -/
def Parser.WellFormed (parser : Parser) : Prop :=
  ∀ text root, parser text = some root → Ordered 0 text.length root.children

mutual

theorem SourceNode.WellFormed.le : (node : SourceNode) → node.WellFormed → node.start ≤ node.stop
  | ⟨_, _, _, _, children⟩, h => Ordered.le children h.1

theorem Ordered.le {start stop : Nat} :
    (nodes : List SourceNode) → Ordered start stop nodes → start ≤ stop
  | [], h => h
  | node :: rest, ⟨hstart, hnode, hrest⟩ => by
    have hspan := SourceNode.WellFormed.le node hnode
    have hbehind := Ordered.le rest hrest
    omega

end

theorem Ordered.of_mem (h : Ordered start stop nodes) (hmem : node ∈ nodes) :
    start ≤ node.start ∧ node.WellFormed ∧ node.stop ≤ stop := by
  induction nodes generalizing start with
  | nil => cases hmem
  | cons first rest ih =>
    obtain ⟨hstart, hfirst, hrest⟩ := h
    rcases List.mem_cons.mp hmem with rfl | hmem
    · exact ⟨hstart, hfirst, Ordered.le rest hrest⟩
    · obtain ⟨hnode, hwf, hstop⟩ := ih hrest hmem
      have hle := SourceNode.WellFormed.le first hfirst
      exact ⟨by omega, hwf, hstop⟩

/-- No node behind another begins in front of it. -/
theorem Ordered.start_le {front behind : List SourceNode} {next : SourceNode}
    (h : Ordered start stop (front ++ node :: behind)) (hmem : next ∈ node :: behind) :
    node.start ≤ next.start := by
  induction front generalizing start with
  | nil =>
    obtain ⟨-, hnode, hbehind⟩ := h
    rcases List.mem_cons.mp hmem with rfl | hmem
    · exact Nat.le_refl _
    · exact Nat.le_trans (SourceNode.WellFormed.le node hnode) (hbehind.of_mem hmem).1
  | cons first front ih => exact ih h.2.2

/-- The braces of a block lie in its span. -/
theorem braces?_bounds (h : Ordered start stop nodes) {opening closing : Nat}
    (hbraces : braces? nodes = some (opening, closing)) : start ≤ opening ∧ closing ≤ stop := by
  unfold braces? at hbraces
  cases hopening : nodes.find? (·.kind == "\x7b") with
  | none => simp [hopening] at hbraces
  | some first =>
    cases hclosing : nodes.reverse.find? (·.kind == "\x7d") with
    | none => simp [hopening, hclosing] at hbraces
    | some last =>
      simp only [hopening, hclosing, Option.bind_eq_bind, Option.bind_some, Option.pure_def,
        Option.some.injEq, Prod.mk.injEq] at hbraces
      obtain ⟨rfl, rfl⟩ := hbraces
      obtain ⟨hstart, hfirst, -⟩ := h.of_mem (List.mem_of_find?_eq_some hopening)
      obtain ⟨-, hlast, hstop⟩ :=
        h.of_mem (List.mem_reverse.mp (List.mem_of_find?_eq_some hclosing))
      have hle := SourceNode.WellFormed.le first hfirst
      have hle' := SourceNode.WellFormed.le last hlast
      exact ⟨by omega, by omega⟩

/-! ## Outermost blocks -/

mutual

/-- The outermost blocks in a node, from the first to the last. -/
def SourceNode.blocks : SourceNode → List SourceNode
  | ⟨kind, isNamed, start, stop, children⟩ =>
    if kind == blockKind then [⟨kind, isNamed, start, stop, children⟩] else blocksAmong children

/-- The outermost blocks among nodes. -/
def blocksAmong : List SourceNode → List SourceNode
  | [] => []
  | node :: rest => node.blocks ++ blocksAmong rest

end

/-- The statement in a text from a place on, cut at one block after another. -/
def Statement.cut? (text : List Char) (behind : Nat → Option Statement) :
    List SourceNode → Nat → Option Statement
  | [], place => behind place
  | node :: rest, place =>
    match braces? node.children with
    | none => Statement.cut? text behind rest place
    | some (opening, closing) => do
      let before ← slice? text place opening
      let body ← Block.ofNodes? text closing opening node.children
      let rest ← Statement.cut? text behind rest closing
      return .block before body rest

theorem Statement.cut?_append (behind : Nat → Option Statement) (blocks more : List SourceNode)
    (place : Nat) : Statement.cut? text behind (blocks ++ more) place =
      Statement.cut? text (Statement.cut? text behind more) blocks place := by
  induction blocks generalizing place with
  | nil => rfl
  | cons block blocks ih =>
    rw [List.cons_append, Statement.cut?, Statement.cut?]
    simp only [ih]

mutual

/-- A statement is cut at the outermost blocks in its node, one after another. -/
theorem Statement.ofNode?_eq_cut? : (node : SourceNode) → (place : Nat) →
    (behind : Nat → Option Statement) →
    Statement.ofNode? text place behind node = Statement.cut? text behind node.blocks place
  | ⟨kind, _, _, _, children⟩, place, behind => by
    rw [Statement.ofNode?, SourceNode.blocks]
    split
    · rfl
    · exact Statement.ofNodes?_eq_cut? children place behind

theorem Statement.ofNodes?_eq_cut? : (nodes : List SourceNode) → (place : Nat) →
    (behind : Nat → Option Statement) →
    Statement.ofNodes? text place behind nodes =
      Statement.cut? text behind (blocksAmong nodes) place
  | [], _, _ => rfl
  | node :: rest, place, behind => by
    have hrest : (fun place => Statement.ofNodes? text place behind rest) =
        Statement.cut? text behind (blocksAmong rest) :=
      funext fun place => Statement.ofNodes?_eq_cut? rest place behind
    rw [Statement.ofNodes?, blocksAmong, hrest, Statement.ofNode?_eq_cut? node,
      Statement.cut?_append]

end

/-! ## Slices -/

theorem slice?_eq (h : start ≤ stop) (hlen : stop ≤ text.length) :
    slice? text start stop = some (String.ofList ((text.drop start).take (stop - start))) :=
  if_pos ⟨h, hlen⟩

theorem length_of_slice? {part : String} (h : slice? text start stop = some part) :
    start ≤ stop ∧ stop ≤ text.length ∧ part.toList.length = stop - start := by
  unfold slice? at h
  split_ifs at h with hbounds
  cases h
  refine ⟨hbounds.1, hbounds.2, ?_⟩
  rw [String.toList_ofList, List.length_take, List.length_drop]
  omega

theorem slice?_all : slice? text 0 text.length = some (String.ofList text) := by
  simp [slice?]

theorem slice?_middle (front part behind : List Char) :
    slice? (front ++ (part ++ behind)) front.length (front.length + part.length) =
      some (String.ofList part) := by
  have hlen : front.length + part.length ≤ (front ++ (part ++ behind)).length := by
    simp only [List.length_append]
    omega
  rw [slice?_eq (Nat.le_add_right _ _) hlen, List.drop_left, Nat.add_sub_cancel_left,
    List.take_left]

theorem slice?_end {front behind : List Char} (h : front ++ behind = text) :
    slice? text front.length text.length = some (String.ofList behind) := by
  have hmiddle := slice?_middle front behind []
  rwa [List.append_nil, ← List.length_append, h] at hmiddle

/-- Neighbouring parts of a text make up one part. -/
theorem slice?_append {s t : String} (hs : slice? text a b = some s)
    (ht : slice? text b c = some t) : slice? text a c = some (s ++ t) := by
  unfold slice? at hs ht ⊢
  split_ifs at hs ht with hab hbc
  rw [Option.some.injEq] at hs ht
  rw [if_pos ⟨by omega, hbc.2⟩, ← hs, ← ht, ← String.ofList_append]
  have hcut : c - a = (b - a) + (c - b) := by omega
  have hskip : a + (b - a) = b := by omega
  rw [hcut, List.take_add, List.drop_drop, hskip]

/-! ## The cut -/

/-- A lifted list of statements prints as the text between two places. -/
def Block.Spans (text : List Char) (start stop : Nat) (lifted : Option Block) : Prop :=
  ∃ block, lifted = some block ∧ slice? text start stop = some block.text

/-- A lifted statement prints as the text between two places. -/
def Statement.Spans (text : List Char) (start stop : Nat) (lifted : Option Statement) : Prop :=
  ∃ statement, lifted = some statement ∧ slice? text start stop = some statement.text

theorem Block.spans_done (h : start ≤ stop) (hlen : stop ≤ text.length) :
    Block.Spans text start stop ((slice? text start stop).map .done) := by
  have hslice := slice?_eq h hlen
  exact ⟨.done _, by rw [hslice]; rfl, hslice⟩

theorem Statement.spans_plain (h : start ≤ stop) (hlen : stop ≤ text.length) :
    Statement.Spans text start stop ((slice? text start stop).map .plain) := by
  have hslice := slice?_eq h hlen
  exact ⟨.plain _, by rw [hslice]; rfl, hslice⟩

mutual

/-- A list of statements covers the text from a place up to its end. -/
theorem Block.spans_ofNodes? : (nodes : List SourceNode) → ∀ {start' stop' stop place : Nat},
    Ordered start' stop' nodes → place ≤ stop → stop ≤ text.length →
    (∀ node ∈ nodes, node.isStatement → place ≤ node.start ∧ node.stop ≤ stop) →
    Block.Spans text place stop (Block.ofNodes? text stop place nodes)
  | [], _, _, stop, place, _, hle, hlen, _ => by
    rw [Block.ofNodes?, Nat.max_eq_left hle]
    exact Block.spans_done hle hlen
  | node :: rest, _, _, stop, place, ⟨_, hnode, hrest⟩, hle, hlen, hstatements => by
    have hbehind : ∀ next ∈ rest, next.isStatement → place ≤ next.start ∧ next.stop ≤ stop :=
      fun next hmem => hstatements next (List.mem_cons_of_mem node hmem)
    rw [Block.ofNodes?]
    split_ifs with hkind
    · obtain ⟨hstart, hstop⟩ := hstatements node (List.mem_cons_self ..) hkind
      have hspan := SourceNode.WellFormed.le node hnode
      obtain ⟨statement, hstatement, htext⟩ :=
        Statement.spans_ofNode? node hnode (Nat.le_refl _) (by omega)
          (fun place => (slice? text place node.stop).map .plain)
          fun p _ hp => Statement.spans_plain hp (by omega)
      -- The next gap begins where this statement ends, and the later statements lie behind that.
      obtain ⟨block, hblock, hblockText⟩ :=
        Block.spans_ofNodes? rest hrest hstop hlen fun next hmem hnext =>
          ⟨(hrest.of_mem hmem).1, (hbehind next hmem hnext).2⟩
      have hgap := slice?_eq hstart (by omega : node.start ≤ text.length)
      refine ⟨.next _ statement block, ?_, slice?_append hgap (slice?_append htext hblockText)⟩
      rw [hgap, hstatement, hblock]
      rfl
    · exact Block.spans_ofNodes? rest hrest hle hlen hbehind

/-- A statement that is cut at the blocks in a node covers the text from a place on, if what is
behind the node does. -/
theorem Statement.spans_ofNode? : (node : SourceNode) → ∀ {stop place : Nat},
    node.WellFormed → place ≤ node.start → node.stop ≤ text.length →
    ∀ behind : Nat → Option Statement,
    (∀ p, place ≤ p → p ≤ node.stop → Statement.Spans text p stop (behind p)) →
    Statement.Spans text place stop (Statement.ofNode? text place behind node)
  | ⟨kind, _, start, stop', children⟩, stop, place, ⟨hchildren, hblock⟩, hplace, hlen, behind,
      hbehind => by
    simp only at hplace hlen hbehind
    have hspan := Ordered.le children hchildren
    rw [Statement.ofNode?]
    split_ifs with hkind
    · cases hpair : braces? children with
      | none => exact hbehind place (Nat.le_refl _) (by omega)
      | some pair =>
        obtain ⟨opening, closing⟩ := pair
        obtain ⟨hopening, hclosing⟩ := braces?_bounds hchildren hpair
        obtain ⟨hle, hstatements⟩ := hblock (beq_iff_eq.mp hkind) opening closing hpair
        obtain ⟨body, hbody, hbodyText⟩ :=
          Block.spans_ofNodes? children hchildren hle (by omega) hstatements
        obtain ⟨rest, hrest, hrestText⟩ := hbehind closing (by omega) hclosing
        have hbefore := slice?_eq (by omega : place ≤ opening) (by omega : opening ≤ text.length)
        refine ⟨.block _ body rest, ?_, slice?_append hbefore (slice?_append hbodyText hrestText)⟩
        simp only [hbefore, hbody, hrest]
        rfl
    · exact Statement.spans_ofNodes? children hchildren hplace hlen behind hbehind

theorem Statement.spans_ofNodes? : (nodes : List SourceNode) → ∀ {start stop' stop place : Nat},
    Ordered start stop' nodes → place ≤ start → stop' ≤ text.length →
    ∀ behind : Nat → Option Statement,
    (∀ p, place ≤ p → p ≤ stop' → Statement.Spans text p stop (behind p)) →
    Statement.Spans text place stop (Statement.ofNodes? text place behind nodes)
  | [], start, stop', _, place, hle, hplace, _, behind, hbehind =>
    hbehind place (Nat.le_refl _) (Nat.le_trans hplace hle)
  | node :: rest, _, stop', stop, place, ⟨hstart, hnode, hrest⟩, hplace, hlen, behind,
      hbehind => by
    have hspan := SourceNode.WellFormed.le node hnode
    have hle := Ordered.le rest hrest
    rw [Statement.ofNodes?]
    refine Statement.spans_ofNode? node hnode (by omega) (by omega) _ fun p hp hp' => ?_
    exact Statement.spans_ofNodes? rest hrest hp' hlen behind fun q hq hq' =>
      hbehind q (by omega) hq'

end

/-- A source that a parser accepts has a script, which prints as the source. -/
theorem exists_parse? {parser : Parser} (hparser : parser.WellFormed) {source : String}
    {root : SourceNode} (hroot : parser source.toList = some root) :
    ∃ script, parse? parser source = some script ∧ script.text = source := by
  have hchildren := hparser source.toList root hroot
  obtain ⟨script, hscript, htext⟩ :=
    Block.spans_ofNodes? root.children hchildren (Nat.zero_le _) (Nat.le_refl _)
      fun node hmem _ => ⟨Nat.zero_le _, (hchildren.of_mem hmem).2.2⟩
  refine ⟨script, ?_, ?_⟩
  · unfold parse?
    rw [hroot]
    exact hscript
  · rw [slice?_all, String.ofList_toList, Option.some.injEq] at htext
    exact htext.symm

/-- A source that a parser does not accept has no script. -/
theorem parse?_eq_none {parser : Parser} {source : String} (h : parser source.toList = none) :
    parse? parser source = none := by
  unfold parse?
  rw [h]
  rfl

end Retrofit.Script

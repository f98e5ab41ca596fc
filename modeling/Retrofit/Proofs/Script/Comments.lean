import Mathlib.Data.List.Forall2
import Retrofit.Proofs.Script.Source

/-!
# Comments between statements

**Theorem (`keeps_parse?`).** Let a parser with well-formed trees accept a source. Then the script
has a list of statements at exactly the addresses at which the source tree has one, and in each of
them the statements are the nodes that count as such, in order, while every other node between them
is part of a gap or of the text behind the last.

**Which comments count.** The comments in markup style do: their kind is not among `extras`. So the
statements of a list are those of the source, comments aside, if and only if no comment in markup
style stands in the list (`SourceList.Keeps.exact`), and `not_commentsAside` is a script where one
takes the first place. All other comments, and the first line that begins with `#!`, take none.

A list of the source tree that lies within the text (`SourceList.Fits`) is lifted node by node, and
the lists in its statements lie within the text again, so that the addresses are followed on both
sides at once (`rel_list?`).
-/

namespace Retrofit.Script

variable {text : List Char} {node : SourceNode} {nodes front behind : List SourceNode}
  {start stop place : Nat} {block : Block} {statement : Statement}

/-! ## Lists of statements in a source tree -/

/-- The kinds of comments. -/
def commentKinds : List String :=
  ["comment", "html_comment", "hash_bang_line"]

namespace SourceNode

/-- Whether a node is a statement of the source: it has a name and is no comment. -/
def isProper (node : SourceNode) : Bool :=
  node.isNamed && !commentKinds.contains node.kind

/-- The text that a node covers. -/
def text? (text : List Char) (node : SourceNode) : Option String :=
  slice? text node.start node.stop

/-- The statement that is made of a node. -/
def lift? (text : List Char) (node : SourceNode) : Option Statement :=
  Statement.ofNode? text node.start (fun place => (slice? text place node.stop).map .plain) node

end SourceNode

/-- A list of statements in a source tree: the nodes of the list between two places, with those of
the braces around them. -/
structure SourceList where
  nodes : List SourceNode
  start : Nat
  stop : Nat

/-- The list of statements in a block, if the block has braces. -/
def SourceNode.inside? (block : SourceNode) : Option SourceList :=
  (braces? block.children).map fun (opening, closing) => ⟨block.children, opening, closing⟩

/-- The lists of statements in the outermost blocks of a node. -/
def SourceNode.lists (node : SourceNode) : List SourceList :=
  node.blocks.filterMap SourceNode.inside?

/-- The list of statements that a whole text with a source tree is. -/
def SourceNode.whole (text : List Char) (root : SourceNode) : SourceList :=
  ⟨root.children, 0, text.length⟩

namespace SourceList

/-- The nodes that count as statements. -/
def statements (list : SourceList) : List SourceNode :=
  list.nodes.filter SourceNode.isStatement

/-- The list of statements that is made of a list of nodes. -/
def lift? (text : List Char) (list : SourceList) : Option Block :=
  Block.ofNodes? text list.stop list.start list.nodes

/-- The list at an address: one index chooses a node that counts as a statement, the next one of
the lists in it. -/
def list? : Address → SourceList → Option SourceList
  | [], list => some list
  | [_], _ => none
  | s :: b :: address, list => do
    let node ← list.statements[s]?
    let inner ← node.lists[b]?
    inner.list? address

/-- The list lies in order within the text. -/
structure Fits (text : List Char) (list : SourceList) : Prop where
  ordered : ∃ start stop, Ordered start stop list.nodes ∧ stop ≤ text.length
  le : list.start ≤ list.stop
  within : list.stop ≤ text.length
  statements : ∀ node ∈ list.nodes, node.isStatement →
    list.start ≤ node.start ∧ node.stop ≤ list.stop

end SourceList

/-- The gaps of a list in order, and the text behind the last statement. -/
def Block.gaps : Block → List String
  | .done trailing => [trailing]
  | .next gap _ rest => gap :: rest.gaps

/-- What a list of statements has of the list in the source tree that it is made of. -/
structure SourceList.Keeps (text : List Char) (list : SourceList) (block : Block) : Prop where
  /-- Its statements are the nodes that count as statements. -/
  statements : block.statements.map (fun statement => some statement.text) =
    list.statements.map (SourceNode.text? text)
  /-- Every other node of the list stands in the gap in front of the statement that comes next. -/
  gaps : ∀ front node behind, list.nodes = front ++ node :: behind → ¬node.isStatement →
    list.start ≤ node.start → node.stop ≤ list.stop →
    ∃ before comment after, node.text? text = some comment ∧
      block.gaps[(front.filter SourceNode.isStatement).length]? = some (before ++ comment ++ after)
  /-- Its statements are the statements of the source, unless there is a comment in markup style. -/
  exact : block.statements.map (fun statement => some statement.text) =
      (list.nodes.filter SourceNode.isProper).map (SourceNode.text? text) ↔
    ∀ node ∈ list.nodes, node.isNamed → node.kind ≠ "html_comment"

/-! ## Blocks in well-formed nodes -/

mutual

/-- The outermost blocks in a well-formed node are well-formed and lie in its span. -/
theorem SourceNode.WellFormed.of_mem_blocks : (node : SourceNode) → node.WellFormed →
    ∀ block ∈ node.blocks, block.kind = blockKind ∧ block.WellFormed ∧ block.stop ≤ node.stop
  | ⟨kind, isNamed, start, stop, children⟩, h, block, hmem => by
    rw [SourceNode.blocks] at hmem
    split_ifs at hmem with hkind
    · rw [List.mem_singleton.mp hmem]
      exact ⟨beq_iff_eq.mp hkind, h, Nat.le_refl _⟩
    · exact Ordered.of_mem_blocksAmong children h.1 block hmem

theorem Ordered.of_mem_blocksAmong : (nodes : List SourceNode) → ∀ {start stop : Nat},
    Ordered start stop nodes →
    ∀ block ∈ blocksAmong nodes, block.kind = blockKind ∧ block.WellFormed ∧ block.stop ≤ stop
  | [], _, _, _, _, hmem => by
    rw [blocksAmong] at hmem
    cases hmem
  | node :: rest, _, stop, ⟨_, hnode, hrest⟩, block, hmem => by
    rw [blocksAmong, List.mem_append] at hmem
    rcases hmem with hmem | hmem
    · obtain ⟨hkind, hwf, hstop⟩ := SourceNode.WellFormed.of_mem_blocks node hnode block hmem
      exact ⟨hkind, hwf, Nat.le_trans hstop (Ordered.le rest hrest)⟩
    · exact Ordered.of_mem_blocksAmong rest hrest block hmem

end

/-- The lists in a well-formed node lie within the text. -/
theorem SourceNode.WellFormed.fits_of_mem_lists (h : node.WellFormed)
    (hlen : node.stop ≤ text.length) {list : SourceList} (hmem : list ∈ node.lists) :
    list.Fits text := by
  obtain ⟨block, hblock, hinside⟩ := List.mem_filterMap.mp hmem
  obtain ⟨hkind, hwf, hstop⟩ := SourceNode.WellFormed.of_mem_blocks node h block hblock
  obtain ⟨⟨opening, closing⟩, hbraces, rfl⟩ := Option.map_eq_some_iff.mp hinside
  obtain ⟨kind, isNamed, start, stop, children⟩ := block
  obtain ⟨hchildren, hbetween⟩ := hwf
  obtain ⟨hle, hstatements⟩ := hbetween hkind opening closing hbraces
  have hclosing := (braces?_bounds hchildren hbraces).2
  dsimp only at hstop
  exact ⟨⟨start, stop, hchildren, by omega⟩, hle, by dsimp only; omega, hstatements⟩

/-! ## Lifting node by node -/

theorem Block.ofNodes?_cons_of_not (h : ¬node.isStatement) :
    Block.ofNodes? text stop place (node :: nodes) = Block.ofNodes? text stop place nodes := by
  rw [Block.ofNodes?, if_neg h]

/-- A node that counts as a statement becomes one, behind the text in front of it. -/
theorem Block.ofNodes?_cons_eq_some (h : node.isStatement) :
    Block.ofNodes? text stop place (node :: nodes) = some block ↔
      ∃ gap statement rest, slice? text place node.start = some gap ∧
        node.lift? text = some statement ∧
        Block.ofNodes? text stop node.stop nodes = some rest ∧
          block = .next gap statement rest := by
  rw [Block.ofNodes?, if_pos h]
  simp only [SourceNode.lift?, Option.bind_eq_bind, Option.bind_eq_some_iff, Option.pure_def,
    Option.some.injEq]
  constructor
  · rintro ⟨gap, hgap, statement, hstatement, rest, hrest, rfl⟩
    exact ⟨gap, statement, rest, hgap, hstatement, hrest, rfl⟩
  · rintro ⟨gap, statement, rest, hgap, hstatement, hrest, rfl⟩
    exact ⟨gap, hgap, statement, hstatement, rest, hrest, rfl⟩

/-- In front of the first node that counts as a statement stands the first gap. -/
theorem Block.exists_node_of_ofNodes? {gap : String} {rest : Block}
    (h : Block.ofNodes? text stop place nodes = some (.next gap statement rest)) :
    ∃ front node behind, nodes = front ++ node :: behind ∧ (∀ other ∈ front, ¬other.isStatement) ∧
      node.isStatement ∧ slice? text place node.start = some gap := by
  induction nodes with
  | nil =>
    obtain ⟨trailing, -, hblock⟩ := Option.map_eq_some_iff.mp h
    cases hblock
  | cons node nodes ih =>
    by_cases hkind : node.isStatement
    · obtain ⟨gap, statement, rest, hgap, -, -, hblock⟩ := (Block.ofNodes?_cons_eq_some hkind).mp h
      cases hblock
      exact ⟨[], node, nodes, rfl, by simp, hkind, hgap⟩
    · rw [Block.ofNodes?_cons_of_not hkind] at h
      obtain ⟨front, first, behind, rfl, hfront, hfirst, hgap⟩ := ih h
      refine ⟨node :: front, first, behind, rfl, fun other hmem => ?_, hfirst, hgap⟩
      obtain rfl | hmem := List.mem_cons.mp hmem
      · exact hkind
      · exact hfront other hmem

/-- The statements of a lifted list are made of the nodes that count as such, one after another. -/
theorem Block.forall₂_ofNodes? (h : Block.ofNodes? text stop place nodes = some block) :
    List.Forall₂ (fun node statement => node.lift? text = some statement)
      (nodes.filter SourceNode.isStatement) block.statements := by
  induction nodes generalizing place block with
  | nil =>
    obtain ⟨trailing, -, rfl⟩ := Option.map_eq_some_iff.mp h
    exact .nil
  | cons node rest ih =>
    by_cases hkind : node.isStatement
    · obtain ⟨gap, statement, more, -, hstatement, hmore, rfl⟩ :=
        (Block.ofNodes?_cons_eq_some hkind).mp h
      rw [List.filter_cons_of_pos hkind]
      exact .cons hstatement (ih hmore)
    · rw [Block.ofNodes?_cons_of_not hkind] at h
      rw [List.filter_cons_of_neg hkind]
      exact ih h

/-- The blocks of a statement are made of the blocks that have braces, one after another. -/
theorem Statement.forall₂_cut? {blocks : List SourceNode}
    (h : Statement.cut? text (fun place => (slice? text place stop).map .plain) blocks place =
      some statement) :
    List.Forall₂ (fun list block => SourceList.lift? text list = some block)
      (blocks.filterMap SourceNode.inside?) statement.blocks := by
  induction blocks generalizing place statement with
  | nil =>
    obtain ⟨behind, -, rfl⟩ := Option.map_eq_some_iff.mp h
    exact .nil
  | cons node rest ih =>
    rw [Statement.cut?] at h
    cases hbraces : braces? node.children with
    | none =>
      rw [hbraces] at h
      rw [List.filterMap_cons_none (by simp [SourceNode.inside?, hbraces])]
      exact ih h
    | some pair =>
      obtain ⟨opening, closing⟩ := pair
      rw [hbraces] at h
      simp only [Option.bind_eq_bind, Option.bind_eq_some_iff, Option.pure_def,
        Option.some.injEq] at h
      obtain ⟨before, -, body, hbody, more, hmore, rfl⟩ := h
      have hinside : node.inside? = some ⟨node.children, opening, closing⟩ := by
        simp [SourceNode.inside?, hbraces]
      rw [List.filterMap_cons_some hinside]
      exact .cons hbody (ih hmore)

/-- The blocks of a statement are made of the lists in its node. -/
theorem SourceNode.forall₂_lists (h : node.lift? text = some statement) :
    List.Forall₂ (fun list block => SourceList.lift? text list = some block)
      node.lists statement.blocks := by
  unfold SourceNode.lift? at h
  rw [Statement.ofNode?_eq_cut?] at h
  exact Statement.forall₂_cut? h

/-! ## Gaps -/

/-- The first gap reaches at least as far as the place behind which the statements lie. -/
theorem Block.gaps_head_ofNodes? (h : Block.ofNodes? text stop place nodes = some block)
    {a : Nat} (hstatements : ∀ node ∈ nodes, node.isStatement → a ≤ node.start) (hstop : a ≤ stop) :
    ∃ gap b, block.gaps[0]? = some gap ∧ slice? text place b = some gap ∧ a ≤ b := by
  induction nodes generalizing place block with
  | nil =>
    obtain ⟨trailing, htrailing, rfl⟩ := Option.map_eq_some_iff.mp h
    exact ⟨trailing, _, rfl, htrailing, by omega⟩
  | cons node rest ih =>
    by_cases hkind : node.isStatement
    · obtain ⟨gap, statement, more, hgap, -, -, rfl⟩ := (Block.ofNodes?_cons_eq_some hkind).mp h
      exact ⟨gap, _, rfl, hgap, hstatements node List.mem_cons_self hkind⟩
    · rw [Block.ofNodes?_cons_of_not hkind] at h
      exact ih h fun next hmem => hstatements next (List.mem_cons_of_mem node hmem)

/-- A part of a slice is a part of its text. -/
theorem slice?_part {gap : String} {a b c d : Nat} (h : slice? text a d = some gap) (hab : a ≤ b)
    (hbc : b ≤ c) (hcd : c ≤ d) :
    ∃ before part after, slice? text b c = some part ∧ gap = before ++ part ++ after := by
  have hlen : d ≤ text.length := by
    unfold slice? at h
    split_ifs at h with hbounds
    exact hbounds.2
  have hbefore := slice?_eq hab (by omega : b ≤ text.length)
  have hpart := slice?_eq hbc (by omega : c ≤ text.length)
  have hafter := slice?_eq hcd hlen
  have hwhole := slice?_append (slice?_append hbefore hpart) hafter
  rw [h, Option.some.injEq] at hwhole
  exact ⟨_, _, _, hpart, hwhole⟩

/-- A node that does not count as a statement stands in the gap in front of the statement that comes
next. -/
theorem Block.gaps_ofNodes? {front : List SourceNode}
    (h : Block.ofNodes? text stop place (front ++ node :: behind) = some block)
    {start' stop' : Nat} (hordered : Ordered start' stop' (front ++ node :: behind))
    (hkind : ¬node.isStatement) (hstart : place ≤ node.start) (hstop : node.stop ≤ stop) :
    ∃ before comment after, node.text? text = some comment ∧
      block.gaps[(front.filter SourceNode.isStatement).length]? =
        some (before ++ comment ++ after) := by
  induction front generalizing place block start' with
  | nil =>
    obtain ⟨-, hnode, hbehind⟩ := hordered
    rw [List.nil_append, Block.ofNodes?_cons_of_not hkind] at h
    obtain ⟨gap, b, hgap, hslice, hb⟩ :=
      Block.gaps_head_ofNodes? h (fun next hmem _ => (hbehind.of_mem hmem).1) hstop
    have hspan := SourceNode.WellFormed.le node hnode
    obtain ⟨before, comment, after, hcomment, rfl⟩ := slice?_part hslice hstart hspan hb
    exact ⟨before, comment, after, hcomment, hgap⟩
  | cons first rest ih =>
    obtain ⟨-, hfirst, hrest⟩ := hordered
    by_cases hfirstKind : first.isStatement
    · obtain ⟨gap, statement, more, -, -, hmore, rfl⟩ :=
        (Block.ofNodes?_cons_eq_some hfirstKind).mp h
      -- Behind a statement the next gap begins, and the node lies behind that.
      have hnode : first.stop ≤ node.start :=
        (hrest.of_mem (List.mem_append_right _ List.mem_cons_self)).1
      rw [List.filter_cons_of_pos hfirstKind]
      exact ih hmore hrest hnode
    · rw [List.cons_append, Block.ofNodes?_cons_of_not hfirstKind] at h
      rw [List.filter_cons_of_neg hfirstKind]
      exact ih h hrest hstart

/-! ## Statements and comments -/

/-- The nodes that count as statements are the statements of the source and the comments in markup
style. -/
theorem SourceNode.isStatement_iff : node.isStatement ↔
    node.isProper ∨ (node.isNamed ∧ node.kind = "html_comment") := by
  unfold isStatement isProper extras commentKinds
  simp only [List.contains_cons, List.contains_nil, Bool.or_false, Bool.and_eq_true,
    Bool.not_eq_true', Bool.or_eq_false_iff, beq_eq_false_iff_ne]
  by_cases hkind : node.kind = "html_comment"
  · simp [hkind]
  · simp [hkind]

theorem SourceNode.not_isProper_of_markup (h : node.kind = "html_comment") : ¬node.isProper := by
  simp [isProper, commentKinds, h]

/-- The statements of the source are among the nodes that count. -/
theorem filter_isProper_sublist (nodes : List SourceNode) :
    (nodes.filter SourceNode.isProper).Sublist (nodes.filter SourceNode.isStatement) := by
  refine List.monotone_filter_right nodes fun node hnode => ?_
  exact SourceNode.isStatement_iff.mpr (.inl hnode)

/-- The statements of the source are all nodes that count if and only if there is no comment in
markup style. -/
theorem filter_isProper_eq_iff :
    nodes.filter SourceNode.isProper = nodes.filter SourceNode.isStatement ↔
      ∀ node ∈ nodes, node.isNamed → node.kind ≠ "html_comment" := by
  constructor
  · intro hsame node hmem hnamed hkind
    have hcounts : node ∈ nodes.filter SourceNode.isStatement :=
      List.mem_filter.mpr ⟨hmem, SourceNode.isStatement_iff.mpr (.inr ⟨hnamed, hkind⟩)⟩
    rw [← hsame] at hcounts
    exact SourceNode.not_isProper_of_markup hkind (List.mem_filter.mp hcounts).2
  · intro hnone
    refine List.filter_congr fun node hmem => ?_
    rw [Bool.eq_iff_iff, SourceNode.isStatement_iff]
    constructor
    · exact .inl
    · rintro (hproper | ⟨hnamed, hkind⟩)
      · exact hproper
      · exact absurd hkind (hnone node hmem hnamed)

/-! ## Lists at addresses -/

/-- The statement that is made of a well-formed node prints as the text that the node covers. -/
theorem SourceNode.WellFormed.text_of_lift? (h : node.WellFormed) (hlen : node.stop ≤ text.length)
    (hlift : node.lift? text = some statement) : node.text? text = some statement.text := by
  obtain ⟨lifted, hlifted, htext⟩ := Statement.spans_ofNode? node h (Nat.le_refl _) hlen
    (fun place => (slice? text place node.stop).map .plain)
    fun place _ hplace => Statement.spans_plain hplace hlen
  have hsame : lifted = statement := Option.some.inj (hlifted.symm.trans hlift)
  rw [← hsame]
  exact htext

namespace SourceList

variable {list : SourceList}

theorem Fits.of_mem (h : list.Fits text) (hmem : node ∈ list.nodes) :
    node.WellFormed ∧ node.stop ≤ text.length := by
  obtain ⟨start, stop, hordered, hlen⟩ := h.ordered
  obtain ⟨-, hnode, hstop⟩ := hordered.of_mem hmem
  exact ⟨hnode, Nat.le_trans hstop hlen⟩

/-- The statements of a lifted list are made of well-formed nodes within the text. -/
theorem Fits.forall₂_statements (h : list.Fits text) (hlift : list.lift? text = some block) :
    List.Forall₂ (fun node statement =>
        (node.WellFormed ∧ node.stop ≤ text.length) ∧ node.lift? text = some statement)
      list.statements block.statements := by
  have hnodes : ∀ node ∈ list.statements, node.WellFormed ∧ node.stop ≤ text.length :=
    fun node hmem => h.of_mem (List.mem_filter.mp hmem).1
  exact (List.forall₂_and_left _ _).mpr ⟨hnodes, Block.forall₂_ofNodes? hlift⟩

/-- The statements of a lifted list print as the nodes that they are made of. -/
theorem Fits.map_text (h : list.Fits text) (hlift : list.lift? text = some block) :
    block.statements.map (fun statement => some statement.text) =
      list.statements.map (SourceNode.text? text) := by
  have htexts : List.Forall₂ (· = ·) (list.statements.map (SourceNode.text? text))
      (block.statements.map fun statement => some statement.text) := by
    rw [List.forall₂_map_left_iff, List.forall₂_map_right_iff]
    exact (h.forall₂_statements hlift).imp fun node statement hnode =>
      hnode.1.1.text_of_lift? hnode.1.2 hnode.2
  rw [List.forall₂_eq_eq_eq] at htexts
  exact htexts.symm

/-- A list within the text keeps its statements and its comments when it is lifted. -/
theorem Fits.keeps (h : list.Fits text) (hlift : list.lift? text = some block) :
    list.Keeps text block where
  statements := h.map_text hlift
  gaps front node behind hnodes hkind hstart hstop := by
    obtain ⟨start', stop', hordered, -⟩ := h.ordered
    rw [hnodes] at hordered
    rw [lift?, hnodes] at hlift
    exact Block.gaps_ofNodes? hlift hordered hkind hstart hstop
  exact := by
    rw [h.map_text hlift, ← filter_isProper_eq_iff]
    constructor
    · intro hsame
      have hlen := congrArg List.length hsame
      rw [List.length_map, List.length_map] at hlen
      exact (filter_isProper_sublist list.nodes).eq_of_length hlen.symm
    · intro hsame
      rw [hsame]
      rfl

end SourceList

/-- Lists whose members are related are related at every index. -/
theorem rel_getElem? {α β : Type} {R : α → β → Prop} {l : List α} {l' : List β}
    (h : List.Forall₂ R l l') (i : Nat) : Option.Rel R l[i]? l'[i]? := by
  induction h generalizing i with
  | nil => exact .none
  | cons hhead _ ih =>
    cases i with
    | zero => exact .some hhead
    | succ i => exact ih i

/-- The blocks of a statement are made of lists within the text. -/
theorem SourceNode.WellFormed.forall₂_lists (h : node.WellFormed) (hlen : node.stop ≤ text.length)
    (hlift : node.lift? text = some statement) :
    List.Forall₂ (fun list block => list.Fits text ∧ SourceList.lift? text list = some block)
      node.lists statement.blocks := by
  have hlists : ∀ list ∈ node.lists, list.Fits text := fun _ => h.fits_of_mem_lists hlen
  exact (List.forall₂_and_left _ _).mpr ⟨hlists, SourceNode.forall₂_lists hlift⟩

/-- The lists at an address of the source tree and of the script are made of each other. -/
theorem rel_list? : ∀ {address : Address} {list : SourceList} {block : Block}, list.Fits text →
    list.lift? text = some block →
    Option.Rel (fun inner block => inner.Fits text ∧ inner.lift? text = some block)
      (list.list? address) (block.list? address)
  | [], list, block, hfits, hlift => .some ⟨hfits, hlift⟩
  | [_], _, _, _, _ => .none
  | s :: b :: address, list, block, hfits, hlift => by
    have hstatement := rel_getElem? (hfits.forall₂_statements hlift) s
    rw [SourceList.list?, Block.list?]
    generalize list.statements[s]? = node? at hstatement ⊢
    generalize block.statements[s]? = statement? at hstatement ⊢
    cases hstatement with
    | none => exact .none
    | @some node statement hnode =>
      obtain ⟨⟨hwf, hlen⟩, hlifted⟩ := hnode
      have hinner := rel_getElem? (hwf.forall₂_lists hlen hlifted) b
      simp only [Option.bind_eq_bind, Option.bind_some]
      generalize node.lists[b]? = inner? at hinner ⊢
      generalize statement.blocks[b]? = block? at hinner ⊢
      cases hinner with
      | none => exact .none
      | some hinner => exact rel_list? hinner.1 hinner.2

/-- **Comments between statements.** A script has its lists of statements where the source tree has
them; their statements are the nodes that count as such, which are all statements of the source and
the comments in markup style, and every other comment stands in a gap. -/
theorem keeps_parse? {parser : Parser} (hparser : parser.WellFormed) {source : String}
    {root : SourceNode} (hroot : parser source.toList = some root) :
    ∃ script, parse? parser source = some script ∧ ∀ address,
      Option.Rel (SourceList.Keeps source.toList) ((root.whole source.toList).list? address)
        (script.list? address) := by
  have hchildren := hparser source.toList root hroot
  have hfits : (root.whole source.toList).Fits source.toList :=
    ⟨⟨0, _, hchildren, Nat.le_refl _⟩, Nat.zero_le _, Nat.le_refl _,
      fun node hmem _ => ⟨Nat.zero_le _, (hchildren.of_mem hmem).2.2⟩⟩
  obtain ⟨script, hscript, -⟩ := exists_parse? hparser hroot
  refine ⟨script, hscript, fun address => ?_⟩
  have hlift : (root.whole source.toList).lift? source.toList = some script := by
    unfold parse? at hscript
    rw [hroot] at hscript
    exact hscript
  have hlists : Option.Rel _ (_ : Option SourceList) (script.list? address) :=
    rel_list? hfits hlift
  generalize (root.whole source.toList).list? address = list? at hlists ⊢
  generalize script.list? address = block? at hlists ⊢
  cases hlists with
  | none => exact .none
  | some hlist => exact .some (hlist.1.keeps hlist.2)

/-- A script with all kinds of comments, some of them in the body of a function. -/
def commentedScript : String :=
  "#!/usr/bin/env node\n// a\nf(function () \x7b /* b */\n  x(); // c\n  <!-- d\n\x7d);\n"

/-- The comment in markup style is the second statement of the body. -/
theorem keeps_parse?_commentedScript : ∃ root script,
    sourceTree? commentedScript.toList = some root ∧
      parse? sourceTree? commentedScript = some script ∧
      script.gaps = ["#!/usr/bin/env node\n// a\n", "\n"] ∧
      (script.list? [0, 0]).map Block.gaps = some [" /* b */\n  ", " // c\n  ", "\n"] ∧
      ∀ address, Option.Rel (SourceList.Keeps commentedScript.toList)
        ((root.whole commentedScript.toList).list? address) (script.list? address) := by
  have hread : (sourceTree? commentedScript.toList).isSome := by decide +kernel
  obtain ⟨root, hroot⟩ := Option.isSome_iff_exists.mp hread
  obtain ⟨script, hscript, hkeeps⟩ := keeps_parse? wellFormed_sourceTree? hroot
  have hgaps : (parse? sourceTree? commentedScript).map Block.gaps =
      some ["#!/usr/bin/env node\n// a\n", "\n"] := by decide +kernel
  have hinner : (parse? sourceTree? commentedScript).bind
      (fun script => (script.list? [0, 0]).map Block.gaps) =
      some [" /* b */\n  ", " // c\n  ", "\n"] := by decide +kernel
  rw [hscript] at hgaps hinner
  exact ⟨root, script, hroot, hscript, Option.some.inj hgaps, hinner, hkeeps⟩

/-! ## Comments in markup style -/

/-- In every list of a script the statements are those of the source, comments aside. -/
def CommentsAside (parser : Parser) : Prop :=
  ∀ source root script, parser source.toList = some root → parse? parser source = some script →
    ∀ address list block, (root.whole source.toList).list? address = some list →
      script.list? address = some block →
      block.statements.map (fun statement => some statement.text) =
        (list.nodes.filter SourceNode.isProper).map (SourceNode.text? source.toList)

/-- A comment in markup style takes the place of the first statement. -/
theorem not_commentsAside : ¬CommentsAside sourceTree? := by
  intro h
  let source := "<!-- x\na();\n"
  have hproper : (sourceTree? source.toList).map
      (fun root => (root.children.filter SourceNode.isProper).length) = some 1 := by decide +kernel
  have hstatements : (parse? sourceTree? source).map (·.statements.length) = some 2 := by
    decide +kernel
  obtain ⟨root, hroot, hone⟩ := Option.map_eq_some_iff.mp hproper
  obtain ⟨script, hscript, htwo⟩ := Option.map_eq_some_iff.mp hstatements
  have hsame := congrArg List.length (h source root script hroot hscript [] _ _ rfl rfl)
  rw [List.length_map, List.length_map, htwo] at hsame
  rw [SourceNode.whole, hone] at hsame
  exact absurd hsame (by decide)

end Retrofit.Script

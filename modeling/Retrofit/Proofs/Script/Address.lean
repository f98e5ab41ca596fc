import Retrofit.Proofs.Script.Frame

/-!
# Where the nodes of an edited script are

**Theorem (`movesNodes`).** An insertion at the front of a list moves what is in the list by one
index, with everything below, and the inserted statement has index zero there. Statements that are
appended take the indices behind those of the body. A node whose address does not go on from that of
the edited node, nor the other way round, stays where it is, also when a statement is replaced. And
an address names a node, a list if its length is even and a statement if it is odd, if and only if
at every level the node that has been reached has as many parts as the next index needs.

A node has parts, the statements of a list or the blocks of a statement (`Node.parts`), and an
address leads down from part to part (`Node.descend`, `Block.node?_eq_descend`). A change at an
address changes one part at each level of it and leaves the others alone (`Node.ChangedAt`), so what
is asked about an edited script comes down to one level, by induction on the way down.
-/

namespace Retrofit.Script

/-! ## Parts of nodes -/

namespace Node

/-- The statements of a list, or the blocks of a statement. -/
def parts : Node → List Node
  | .list block => block.statements.map .statement
  | .statement whole => whole.blocks.map .list

/-- The node to which indices lead from a node on. -/
def descend (node : Node) (address : Address) : Option Node :=
  address.foldlM (fun node i => node.parts[i]?) node

variable {node edited found part part' old new : Node} {i : Nat} {address : Address}

theorem descend_cons (node : Node) (i : Nat) (address : Address) :
    node.descend (i :: address) = node.parts[i]?.bind (·.descend address) := rfl

theorem descend_of_part (h : node.parts[i]? = some part) (address : Address) :
    node.descend (i :: address) = part.descend address := by
  rw [descend_cons, h, Option.bind_some]

theorem descend_append (node : Node) (address rest : Address) :
    node.descend (address ++ rest) = (node.descend address).bind (·.descend rest) :=
  List.foldlM_append

/-- Indices lead to a node if and only if each node on the way has a part with the next index. -/
theorem exists_descend_iff : (∃ found, node.descend address = some found) ↔
    ∀ front i back, address = front ++ i :: back →
      ∃ inner, node.descend front = some inner ∧ i < inner.parts.length := by
  constructor
  · rintro ⟨found, hfound⟩ front i back rfl
    rw [descend_append] at hfound
    obtain ⟨inner, hinner, hfound⟩ := Option.bind_eq_some_iff.mp hfound
    rw [descend_cons] at hfound
    obtain ⟨part, hpart, -⟩ := Option.bind_eq_some_iff.mp hfound
    exact ⟨inner, hinner, (List.getElem?_eq_some_iff.mp hpart).1⟩
  · intro h
    rcases List.eq_nil_or_concat address with rfl | ⟨front, i, rfl⟩
    · exact ⟨node, rfl⟩
    · rw [List.concat_eq_append] at h ⊢
      obtain ⟨inner, hinner, hlt⟩ := h front i [] rfl
      refine ⟨inner.parts[i], ?_⟩
      rw [descend_append, hinner, Option.bind_some, descend_of_part (List.getElem?_eq_getElem hlt)]
      rfl

/-! ## Changed parts -/

/-- One part has been replaced. -/
structure ChangedPart (i : Nat) (node edited part part' : Node) : Prop where
  before : node.parts[i]? = some part
  replaced : edited.parts = node.parts.set i part'

theorem ChangedPart.after (h : ChangedPart i node edited part part') :
    edited.parts[i]? = some part' := by
  rw [h.replaced, List.getElem?_set_self (List.getElem?_eq_some_iff.mp h.before).1]

theorem ChangedPart.others (h : ChangedPart i node edited part part') {j : Nat} (hj : j ≠ i) :
    edited.parts[j]? = node.parts[j]? := by
  rw [h.replaced, List.getElem?_set_ne hj.symm]

/-- At each level of an address one part is changed, down to a node that takes the place of
another. -/
inductive ChangedAt (old new : Node) : Address → Node → Node → Prop where
  | here : ChangedAt old new [] old new
  | inside {i : Nat} {address : Address} {node edited part part' : Node}
      (hpart : ChangedPart i node edited part part')
        (hinner : ChangedAt old new address part part') :
      ChangedAt old new (i :: address) node edited

theorem ChangedAt.before (h : ChangedAt old new address node edited) (rest : Address) :
    node.descend (address ++ rest) = old.descend rest := by
  induction h with
  | here => rfl
  | inside hpart _ ih => rw [List.cons_append, descend_of_part hpart.before, ih]

theorem ChangedAt.after (h : ChangedAt old new address node edited) (rest : Address) :
    edited.descend (address ++ rest) = new.descend rest := by
  induction h with
  | here => rfl
  | inside hpart _ ih => rw [List.cons_append, descend_of_part hpart.after, ih]

/-- A node aside from the changed one stays where it is. -/
theorem ChangedAt.others (h : ChangedAt old new address node edited) {other : Address}
    (hbelow : ¬ address <+: other) (habove : ¬ other <+: address) :
    edited.descend other = node.descend other := by
  induction h generalizing other with
  | here => exact absurd List.nil_prefix hbelow
  | @inside i address node edited part part' hpart _ ih =>
    cases other with
    | nil => exact absurd List.nil_prefix habove
    | cons j other =>
      by_cases hj : j = i
      · subst hj
        rw [List.cons_prefix_cons, not_and] at hbelow habove
        rw [descend_of_part hpart.before, descend_of_part hpart.after]
        exact ih (hbelow rfl) (habove rfl)
      · rw [descend_cons, descend_cons, hpart.others hj]

end Node

/-! ## Addresses -/

theorem Address.isStatement_cons_cons (s b : Nat) (address : Address) :
    Address.isStatement (s :: b :: address) = Address.isStatement address := by
  simp only [Address.isStatement, List.length_cons, Nat.add_assoc, Nat.add_mod_right]

namespace Block

/-- The node at an address: a statement if the number of indices is odd, else a list. -/
def node? (address : Address) (block : Block) : Option Node :=
  if address.isStatement then (block.statementAt? address).map .statement
  else (block.list? address).map .list

variable {block edited : Block} {address : Address}

/-- An address leads down from part to part. -/
theorem node?_eq_descend : ∀ (address : Address) (block : Block),
    block.node? address = (Node.list block).descend address
  | [], block => rfl
  | [s], block => by
    rw [Node.descend_cons, Node.parts, List.getElem?_map]
    cases h : block.statements[s]? <;> exact congrArg (Option.map Node.statement) h
  | s :: b :: address, block => by
    rw [Node.descend_cons, Node.parts, List.getElem?_map, node?, Address.isStatement_cons_cons,
      statementAt?, list?]
    cases hstatement : block.statements[s]? with
    | none => split <;> rfl
    | some statement =>
      rw [Option.map_some, Option.bind_some, Node.descend_cons, Node.parts, List.getElem?_map]
      cases hinner : statement.blocks[b]? with
      | none => split <;> simp [hinner]
      | some inner =>
        rw [Option.map_some, Option.bind_some, ← node?_eq_descend address inner, node?]
        simp [hinner]

/-- At every level of an address, the node that has been reached has a part with the next index. -/
def HasIndices (block : Block) (address : Address) : Prop :=
  ∀ front i back, address = front ++ i :: back →
    ∃ node, block.node? front = some node ∧ i < node.parts.length

theorem exists_node?_iff :
    (∃ node, block.node? address = some node) ↔ block.HasIndices address := by
  simp only [HasIndices, node?_eq_descend]
  exact Node.exists_descend_iff

/-- There is no list at an address of odd length and no statement at one of even length. -/
theorem eq_none_of_kind : ∀ (address : Address) (block : Block),
    (address.isStatement = true → block.list? address = none) ∧
      (address.isStatement = false → block.statementAt? address = none)
  | [], _ => ⟨fun h => (nomatch h), fun _ => rfl⟩
  | [_], _ => ⟨fun _ => rfl, fun h => (nomatch h)⟩
  | s :: b :: address, block => by
    rw [Address.isStatement_cons_cons, list?, statementAt?]
    cases block.statements[s]? with
    | none => exact ⟨fun _ => rfl, fun _ => rfl⟩
    | some statement =>
      simp only [Option.bind_eq_bind, Option.bind_some]
      cases statement.blocks[b]? with
      | none => exact ⟨fun _ => rfl, fun _ => rfl⟩
      | some inner => exact eq_none_of_kind address inner

/-- Lists have addresses of even length. -/
theorem exists_list?_iff : (∃ list, block.list? address = some list) ↔
    address.isStatement = false ∧ block.HasIndices address := by
  rw [← exists_node?_iff, node?]
  cases hkind : address.isStatement with
  | true => simp [(eq_none_of_kind address block).1 hkind]
  | false => simp [Option.map_eq_some_iff, exists_comm]

/-- Statements have addresses of odd length. -/
theorem exists_statementAt?_iff : (∃ statement, block.statementAt? address = some statement) ↔
    address.isStatement = true ∧ block.HasIndices address := by
  rw [← exists_node?_iff, node?]
  cases hkind : address.isStatement with
  | true => simp [Option.map_eq_some_iff, exists_comm]
  | false => simp [(eq_none_of_kind address block).2 hkind]

end Block

/-! ## Changes -/

section Changes

variable {block edited : Block} {statement changed : Statement} {i : Nat}

theorem Block.changedPart_of_change? {f : Statement → Option Statement}
    (h : block.change? f i = some edited) :
    ∃ old new, f old = some new ∧
      Node.ChangedPart i (.list block) (.list edited) (.statement old) (.statement new) := by
  induction i generalizing block edited with
  | zero =>
    cases block with
    | done trailing => cases h
    | next gap old rest =>
      obtain ⟨new, hnew, rfl⟩ := Option.map_eq_some_iff.mp h
      exact ⟨old, new, hnew, rfl, rfl⟩
  | succ i ih =>
    cases block with
    | done trailing => cases h
    | next gap first rest =>
      obtain ⟨rest', hrest, rfl⟩ := Option.map_eq_some_iff.mp h
      obtain ⟨old, new, hnew, hold, hset⟩ := ih hrest
      exact ⟨old, new, hnew, hold, congrArg (List.cons (Node.statement first)) hset⟩

theorem Statement.changedPart_of_change? {f : Block → Option Block}
    (h : statement.change? f i = some changed) :
    ∃ old new, f old = some new ∧
      Node.ChangedPart i (.statement statement) (.statement changed) (.list old) (.list new) := by
  induction i generalizing statement changed with
  | zero =>
    cases statement with
    | plain text => cases h
    | block before old rest =>
      obtain ⟨new, hnew, rfl⟩ := Option.map_eq_some_iff.mp h
      exact ⟨old, new, hnew, rfl, rfl⟩
  | succ i ih =>
    cases statement with
    | plain text => cases h
    | block before body rest =>
      obtain ⟨rest', hrest, rfl⟩ := Option.map_eq_some_iff.mp h
      obtain ⟨old, new, hnew, hold, hset⟩ := ih hrest
      exact ⟨old, new, hnew, hold, congrArg (List.cons (Node.list body)) hset⟩

end Changes

namespace Block

/-- A change of the list at an address changes one part at each level. -/
theorem changedAt_of_changeList? {f : Block → Option Block} :
    ∀ {address : Address} {block edited : Block}, block.changeList? f address = some edited →
      ∃ old new, f old = some new ∧
        Node.ChangedAt (.list old) (.list new) address (.list block) (.list edited)
  | [], block, edited, h => ⟨block, edited, h, .here⟩
  | [_], _, _, h => by cases h
  | s :: b :: address, block, edited, h => by
    obtain ⟨statement, statement', hstatement, hpart⟩ := Block.changedPart_of_change? h
    obtain ⟨inner, inner', hinner, hpart'⟩ := Statement.changedPart_of_change? hstatement
    obtain ⟨old, new, hnew, hchanged⟩ := changedAt_of_changeList? hinner
    exact ⟨old, new, hnew, .inside hpart (.inside hpart' hchanged)⟩

/-- A change of the statement at an address changes one part at each level. -/
theorem changedAt_of_changeStatement? {f : Statement → Option Statement} :
    ∀ {address : Address} {block edited : Block}, block.changeStatement? f address = some edited →
      ∃ old new, f old = some new ∧
        Node.ChangedAt (.statement old) (.statement new) address (.list block) (.list edited)
  | [], _, _, h => by cases h
  | [_], _, _, h => by
    obtain ⟨old, new, hnew, hpart⟩ := Block.changedPart_of_change? h
    exact ⟨old, new, hnew, .inside hpart .here⟩
  | s :: b :: address, block, edited, h => by
    obtain ⟨statement, statement', hstatement, hpart⟩ := Block.changedPart_of_change? h
    obtain ⟨inner, inner', hinner, hpart'⟩ := Statement.changedPart_of_change? hstatement
    obtain ⟨old, new, hnew, hchanged⟩ := changedAt_of_changeStatement? hinner
    exact ⟨old, new, hnew, .inside hpart (.inside hpart' hchanged)⟩

/-! ## Insertions -/

theorem parts_unshift (added : Statement) (block : Block) :
    (Node.list (block.unshift added)).parts = .statement added :: (Node.list block).parts := by
  cases block <;> rfl

theorem statements_foldr (added : List Statement) (block : Block) :
    (added.foldr (.next "\n" · ·) block).statements = added ++ block.statements := by
  induction added with
  | nil => rfl
  | cons statement rest ih => exact congrArg (statement :: ·) ih

theorem statements_append (added : List Statement) (block : Block) :
    (block.append added).statements = block.statements ++ added := by
  induction block using Block.append.induct with
  | case1 trailing => rw [append, statements_foldr, statements, List.append_nil, List.nil_append]
  | case2 gap statement rest ih => exact congrArg (statement :: ·) ih

theorem parts_append (added : List Statement) (block : Block) :
    (Node.list (block.append added)).parts = (Node.list block).parts ++ added.map .statement := by
  rw [Node.parts, statements_append, List.map_append, ← Node.parts]

end Block

/-! ## Edits -/

variable {script edited : Block}

/-- Where the nodes of a script are after an edit. -/
inductive Moves (parser : Parser) (script edited : Block) : Edit → Prop where
  /-- Everything in the list is one index further, behind the first statement of the snippet. -/
  | unshift {list : Address} {text : String} {added : Statement} {others : List Statement}
      (hsnippet : snippet parser text = .ok (added :: others))
      (hmoved : ∀ i rest, edited.node? (list ++ [i + 1] ++ rest) =
        script.node? (list ++ [i] ++ rest))
      (hinserted : edited.node? (list ++ [0]) = some (.statement added))
      (hkept : ∀ other, ¬ list <+: other → ¬ other <+: list →
        edited.node? other = script.node? other) :
      Moves parser script edited (.unshift list text)
  /-- Everything in the body is where it was, and the statements of the snippet are behind it. -/
  | push {text : String} {added : List Statement} (hsnippet : snippet parser text = .ok added)
      (hkept : ∀ address node, address ≠ [] → script.node? address = some node →
        edited.node? address = some node)
      (hbody : edited.statements = script.statements ++ added) :
      Moves parser script edited (.push text)
  /-- What is not above or below the statement is where it was. -/
  | assign {address : Address} {text : String} {substitutions : List Substitution}
      (hkept : ∀ other, ¬ address <+: other → ¬ other <+: address →
        edited.node? other = script.node? other) :
      Moves parser script edited (.assign address text substitutions)

/-- **Edits move nodes as they say**, and addresses name the nodes that their indices lead to. -/
theorem movesNodes {parser : Parser} {edit : Edit} (h : apply parser edit script = .ok edited) :
    Moves parser script edited edit ∧ ∀ (block : Block) (address : Address),
      ((∃ list, block.list? address = some list) ↔
        address.isStatement = false ∧ block.HasIndices address) ∧
      ((∃ statement, block.statementAt? address = some statement) ↔
        address.isStatement = true ∧ block.HasIndices address) := by
  refine ⟨?_, fun block address => ⟨Block.exists_list?_iff, Block.exists_statementAt?_iff⟩⟩
  cases edit with
  | unshift list text =>
    obtain ⟨added, others, hsnippet, hchange⟩ := apply_unshift_eq_ok.mp h
    obtain ⟨old, new, hnew, hchanged⟩ := Block.changedAt_of_changeList? hchange
    cases hnew
    refine .unshift hsnippet (fun i rest => ?_) ?_ fun other hbelow habove => ?_
    · rw [Block.node?_eq_descend, Block.node?_eq_descend, List.append_assoc, List.append_assoc,
        hchanged.after, hchanged.before, List.singleton_append, List.singleton_append,
        Node.descend_cons, Node.descend_cons, Block.parts_unshift, List.getElem?_cons_succ]
    · rw [Block.node?_eq_descend, hchanged.after, Node.descend_cons, Block.parts_unshift]
      rfl
    · rw [Block.node?_eq_descend, Block.node?_eq_descend, hchanged.others hbelow habove]
  | push text =>
    obtain ⟨added, hsnippet, rfl⟩ := apply_push_eq_ok.mp h
    refine .push hsnippet (fun address node hne hnode => ?_) (script.statements_append added)
    obtain ⟨i, rest, rfl⟩ := List.exists_cons_of_ne_nil hne
    rw [Block.node?_eq_descend, Node.descend_cons] at hnode ⊢
    obtain ⟨inner, hinner, hrest⟩ := Option.bind_eq_some_iff.mp hnode
    have hlt := (List.getElem?_eq_some_iff.mp hinner).1
    rw [Block.parts_append, List.getElem?_append_left hlt, hinner, Option.bind_some, hrest]
  | assign address text substitutions =>
    obtain ⟨-, added, copy, node, -, -, -, hchange⟩ := apply_assign_eq_ok.mp h
    obtain ⟨old, new, -, hchanged⟩ := Block.changedAt_of_changeStatement? hchange
    refine .assign fun other hbelow habove => ?_
    rw [Block.node?_eq_descend, Block.node?_eq_descend, hchanged.others hbelow habove]

/-- Behind an insertion into the function body, its old first statement has index one. -/
theorem movesNodes_commentedBody :
    ∃ edited, apply sourceTree? (.unshift [0, 0] "b();") commentedBody = .ok edited ∧
      Moves sourceTree? commentedBody edited (.unshift [0, 0] "b();") ∧
      edited.node? [0, 0, 1] = some (.statement (.plain "a();")) ∧
      ∃ statement, edited.statementAt? [0, 0, 1] = some statement := by
  have hok : (apply sourceTree? (.unshift [0, 0] "b();") commentedBody).isOk := by decide +kernel
  cases happly : apply sourceTree? (.unshift [0, 0] "b();") commentedBody with
  | error error =>
    rw [happly] at hok
    cases hok
  | ok edited =>
    obtain ⟨hmoves, hresolves⟩ := movesNodes happly
    have hnode : edited.node? [0, 0, 1] = some (.statement (.plain "a();")) := by
      cases hmoves with
      | unshift _ hmoved _ _ => exact hmoved 0 []
    refine ⟨edited, rfl, hmoves, hnode, ?_⟩
    rw [(hresolves edited [0, 0, 1]).2, ← Block.exists_node?_iff]
    exact ⟨rfl, _, hnode⟩

end Retrofit.Script

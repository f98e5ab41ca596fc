import Retrofit.Proofs.Script.Comments

/-!
# Source trees of scripts

**Theorem (`Block.ofNodes?_nodes`).** Every script is lifted from a source tree over its text, with
a node for each statement and for each block in it. So a parser may be given by the scripts that it
reads.
-/

namespace Retrofit.Script

/-- The node of a brace. -/
def SourceNode.brace (kind : String) (start stop : Nat) : SourceNode :=
  ⟨kind, false, start, stop, []⟩

mutual

/-- The nodes of a list that begins at a place. -/
def Block.nodes (place : Nat) : Block → List SourceNode
  | .done _ => []
  | .next gap statement rest =>
    let start := place + gap.toList.length
    let stop := start + statement.text.toList.length
    ⟨"statement", true, start, stop, statement.nodes start⟩ :: rest.nodes stop

/-- The nodes of the blocks of a statement that begins at a place. -/
def Statement.nodes (place : Nat) : Statement → List SourceNode
  | .plain _ => []
  | .block before body rest =>
    let opening := place + before.toList.length
    let closing := opening + body.text.toList.length
    ⟨blockKind, true, opening - 1, closing + 1,
      .brace "\x7b" (opening - 1) opening ::
        (body.nodes opening ++ [.brace "\x7d" closing (closing + 1)])⟩ :: rest.nodes closing

end

variable {text front behind : List Char} {node : SourceNode} {nodes : List SourceNode}
  {stop place : Nat}

theorem SourceNode.not_isStatement_brace (kind : String) (start stop : Nat) :
    ¬(brace kind start stop).isStatement :=
  Bool.false_ne_true

theorem Block.ofNodes?_concat (h : ¬node.isStatement) :
    Block.ofNodes? text stop place (nodes ++ [node]) = Block.ofNodes? text stop place nodes := by
  induction nodes generalizing place with
  | nil => exact Block.ofNodes?_cons_of_not h
  | cons first nodes ih =>
    rw [List.cons_append, Block.ofNodes?, Block.ofNodes?]
    simp only [ih]

/-- The braces of a block are found in front of its statements and behind them. -/
theorem braces?_nodes (body : Block) (opening closing : Nat) :
    braces? (.brace "\x7b" (opening - 1) opening ::
      (body.nodes opening ++ [.brace "\x7d" closing (closing + 1)])) = some (opening, closing) := by
  unfold braces?
  rw [← List.cons_append, List.reverse_append, List.cons_append]
  rfl

theorem slice?_at {part : List Char} (htext : front ++ (part ++ behind) = text)
    (hplace : front.length = place) :
    slice? text place (place + part.length) = some (String.ofList part) := by
  rw [← htext, ← hplace]
  exact slice?_middle front part behind

mutual

/-- **A list is lifted from its nodes.** -/
theorem Block.ofNodes?_nodes : (block : Block) → ∀ {text front behind : List Char} {place : Nat},
    front ++ (block.text.toList ++ behind) = text → front.length = place →
    Block.ofNodes? text (place + block.text.toList.length) place (block.nodes place) = some block
  | .done trailing, text, front, behind, place, htext, hplace => by
    have hslice := slice?_at htext hplace
    rw [Block.text, String.ofList_toList] at hslice
    rw [Block.text, Block.nodes, Block.ofNodes?, Nat.max_eq_left (Nat.le_add_right _ _), hslice,
      Option.map_some]
  | .next gap statement rest, text, front, behind, place, htext, hplace => by
    rw [Block.text, String.toList_append, String.toList_append, List.append_assoc,
      List.append_assoc] at htext
    have hgap := slice?_at htext hplace
    have hbehindGap : (front ++ gap.toList) ++
        (statement.text.toList ++ (rest.text.toList ++ behind)) = text := by
      rw [List.append_assoc, htext]
    have hstart : (front ++ gap.toList).length = place + gap.toList.length := by
      rw [List.length_append, hplace]
    have hstatement := Statement.ofNodes?_nodes statement hbehindGap hstart
    have hbehindStatement : (front ++ gap.toList ++ statement.text.toList) ++
        (rest.text.toList ++ behind) = text := by
      rw [List.append_assoc, hbehindGap]
    have hstop : (front ++ gap.toList ++ statement.text.toList).length =
        place + gap.toList.length + statement.text.toList.length := by
      rw [List.length_append, hstart]
    have hrest := Block.ofNodes?_nodes rest hbehindStatement hstop
    have hlength : place + (Block.next gap statement rest).text.toList.length =
        place + gap.toList.length + statement.text.toList.length + rest.text.toList.length := by
      rw [Block.text, String.toList_append, String.toList_append, List.length_append,
        List.length_append]
      omega
    rw [String.ofList_toList] at hgap
    rw [Block.nodes, hlength]
    exact (Block.ofNodes?_cons_eq_some rfl).mpr
      ⟨gap, statement, rest, hgap, hstatement, hrest, rfl⟩

/-- A statement is cut at the nodes of its blocks. -/
theorem Statement.ofNodes?_nodes : (statement : Statement) →
    ∀ {text front behind : List Char} {place : Nat},
    front ++ (statement.text.toList ++ behind) = text → front.length = place →
    Statement.ofNodes? text place
      (fun start => (slice? text start (place + statement.text.toList.length)).map .plain)
      (statement.nodes place) = some statement
  | .plain words, text, front, behind, place, htext, hplace => by
    have hslice := slice?_at htext hplace
    rw [Statement.text, String.ofList_toList] at hslice
    rw [Statement.text, Statement.nodes, Statement.ofNodes?, hslice, Option.map_some]
  | .block before body rest, text, front, behind, place, htext, hplace => by
    rw [Statement.text, String.toList_append, String.toList_append, List.append_assoc,
      List.append_assoc] at htext
    have hbefore := slice?_at htext hplace
    have hbehindBrace : (front ++ before.toList) ++
        (body.text.toList ++ (rest.text.toList ++ behind)) = text := by
      rw [List.append_assoc, htext]
    have hopening : (front ++ before.toList).length = place + before.toList.length := by
      rw [List.length_append, hplace]
    have hbody := Block.ofNodes?_nodes body hbehindBrace hopening
    have hbehindBody : (front ++ before.toList ++ body.text.toList) ++
        (rest.text.toList ++ behind) = text := by
      rw [List.append_assoc, hbehindBrace]
    have hclosing : (front ++ before.toList ++ body.text.toList).length =
        place + before.toList.length + body.text.toList.length := by
      rw [List.length_append, hopening]
    have hrest := Statement.ofNodes?_nodes rest hbehindBody hclosing
    have hlength : place + (Statement.block before body rest).text.toList.length =
        place + before.toList.length + body.text.toList.length + rest.text.toList.length := by
      rw [Statement.text, String.toList_append, String.toList_append, List.length_append,
        List.length_append]
      omega
    rw [String.ofList_toList] at hbefore
    have hkind : (blockKind == blockKind) = true := rfl
    have hbraces := SourceNode.not_isStatement_brace
    rw [hlength, Statement.nodes, Statement.ofNodes?, Statement.ofNode?, if_pos hkind,
      braces?_nodes]
    dsimp only
    rw [hbefore, Block.ofNodes?_cons_of_not (hbraces _ _ _),
      Block.ofNodes?_concat (hbraces _ _ _), hbody, hrest]
    rfl

end

end Retrofit.Script

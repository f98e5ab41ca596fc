import Retrofit.Script.Tree

/-!
# Source trees

**Nodes.** A parser tells of a script which constructs lie where: a tree of nodes, each of a kind
and with the span of text that it covers. Places are numbers of characters from the start.

**Lifting.** A script keeps of that tree only lists of statements. The statements of a list are the
named nodes in it, comments aside, and what lies between two of them is a gap. A statement is cut
at the outermost blocks in it, each behind its opening brace and in front of its closing one. A cut
that runs backwards or out of the text fails, and a script is lifted only if no cut does.
-/

namespace Retrofit.Script

/-- A construct in a text. -/
structure SourceNode where
  kind : String
  /-- Symbols and words of the language have no name. -/
  isNamed : Bool
  start : Nat
  stop : Nat
  children : List SourceNode
deriving Repr

/-- The kinds that may stand between statements without being one. -/
def extras : List String :=
  ["comment", "hash_bang_line"]

/-- The kind of a list of statements in braces. -/
def blockKind : String :=
  "statement_block"

/-- Whether a node in a list of statements is one of them. -/
def SourceNode.isStatement (node : SourceNode) : Bool :=
  node.isNamed && !extras.contains node.kind

/-- Where the first opening brace among nodes ends, and where the last closing brace begins. -/
def braces? (nodes : List SourceNode) : Option (Nat × Nat) := do
  let opening ← nodes.find? (·.kind == "\x7b")
  let closing ← nodes.reverse.find? (·.kind == "\x7d")
  return (opening.stop, closing.start)

/-- The part of a text between two places. -/
def slice? (text : List Char) (start stop : Nat) : Option String :=
  if start ≤ stop ∧ stop ≤ text.length then
    some (String.ofList ((text.drop start).take (stop - start)))
  else none

mutual

/-- The statements among nodes, from a place on, with the text up to `stop` behind the last. -/
def Block.ofNodes? (text : List Char) (stop place : Nat) : List SourceNode → Option Block
  | [] => (slice? text place (max stop place)).map .done
  | node :: rest =>
    if node.isStatement then do
      let gap ← slice? text place node.start
      let statement ← Statement.ofNode? text node.start
        (fun place => (slice? text place node.stop).map .plain) node
      let rest ← Block.ofNodes? text stop node.stop rest
      return .next gap statement rest
    else Block.ofNodes? text stop place rest

/-- The statement in a text from a place on, cut at the outermost blocks in a node; `behind` is the
statement from the last of them on. -/
def Statement.ofNode? (text : List Char) (place : Nat) (behind : Nat → Option Statement) :
    SourceNode → Option Statement
  | ⟨kind, _, _, _, children⟩ =>
    if kind == blockKind then
      match braces? children with
      | none => behind place
      | some (opening, closing) => do
        let before ← slice? text place opening
        let body ← Block.ofNodes? text closing opening children
        let rest ← behind closing
        return .block before body rest
    else Statement.ofNodes? text place behind children

/-- The statement in a text from a place on, cut at the outermost blocks in nodes. -/
def Statement.ofNodes? (text : List Char) (place : Nat) (behind : Nat → Option Statement) :
    List SourceNode → Option Statement
  | [] => behind place
  | node :: rest =>
    Statement.ofNode? text place (fun place => Statement.ofNodes? text place behind rest) node

end

/-- A parser of scripts; nothing if the text is no script. -/
abbrev Parser := List Char → Option SourceNode

/-- The script with a source that a parser accepts. -/
def parse? (parser : Parser) (text : String) : Option Block := do
  let root ← parser text.toList
  Block.ofNodes? text.toList text.toList.length 0 root.children

end Retrofit.Script

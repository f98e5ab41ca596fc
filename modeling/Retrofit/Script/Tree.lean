import Retrofit.Script.Address

/-!
# Scripts as trees

**Blocks and statements.** A `Block` is a list of statements: each stands behind a gap, and some
text follows the last. A `Statement` is a text in which blocks stand, the bodies of functions,
loops and the like. A whole script is a block. The two types keep every character, so `Block.text`
is all there is to printing.

**Addresses.** `list?` and `statementAt?` look a node up, `changeList?` and `changeStatement?`
replace it. Both walk down the address in the same way: one index chooses a statement, the next
one of its blocks.

**Outlines.** `Block.outline` lists the nodes below a block with their addresses, a node in front
of those inside it.
-/

namespace Retrofit.Script

mutual

/-- A list of statements. -/
inductive Block where
  /-- No statement is left, only the text behind the last. -/
  | done (trailing : String)
  /-- The first statement behind its gap, and the rest of the list. -/
  | next (gap : String) (statement : Statement) (rest : Block)
deriving DecidableEq, Repr

/-- A text with blocks in it. -/
inductive Statement where
  /-- Text without a block. -/
  | plain (text : String)
  /-- Text up to an opening brace, the block behind it, and the rest from the closing brace on. -/
  | block (before : String) (body : Block) (rest : Statement)
deriving DecidableEq, Repr

end

instance : Inhabited Block := ⟨.done ""⟩
instance : Inhabited Statement := ⟨.plain ""⟩

/-! ## Text -/

mutual

/-- The text of a block: gaps, statements and what follows them. -/
def Block.text : Block → String
  | .done trailing => trailing
  | .next gap statement rest => gap ++ (statement.text ++ rest.text)

def Statement.text : Statement → String
  | .plain t => t
  | .block before body rest => before ++ (body.text ++ rest.text)

end

/-! ## Members -/

namespace Block

/-- The number of statements. -/
def size : Block → Nat
  | .done _ => 0
  | .next _ _ rest => rest.size + 1

def statements : Block → List Statement
  | .done _ => []
  | .next _ statement rest => statement :: rest.statements

/-- The text behind the last statement. -/
def trailing : Block → String
  | .done t => t
  | .next _ _ rest => rest.trailing

def head? : Block → Option Statement
  | .done _ => none
  | .next _ statement _ => some statement

/-- The block in which a change of the statement with an index has been tried. -/
def change? (f : Statement → Option Statement) : Nat → Block → Option Block
  | _, .done _ => none
  | 0, .next gap statement rest => (f statement).map (.next gap · rest)
  | i + 1, .next gap statement rest => (change? f i rest).map (.next gap statement ·)

/-- Adds statements behind the last, each on a line of its own. -/
def append (added : List Statement) : Block → Block
  | .done trailing => added.foldr (.next "\n" · ·) (.done trailing)
  | .next gap statement rest => .next gap statement (append added rest)

end Block

namespace Statement

def blocks : Statement → List Block
  | .plain _ => []
  | .block _ body rest => body :: rest.blocks

/-- The statement in which a change of the block with an index has been tried. -/
def change? (f : Block → Option Block) : Nat → Statement → Option Statement
  | _, .plain _ => none
  | 0, .block before body rest => (f body).map (.block before · rest)
  | i + 1, .block before body rest => (change? f i rest).map (.block before body ·)

end Statement

/-! ## Addresses -/

namespace Block

/-- The list of statements at an address. -/
def list? : Address → Block → Option Block
  | [], block => some block
  | [_], _ => none
  | s :: b :: address, block => do
    let statement ← block.statements[s]?
    let inner ← statement.blocks[b]?
    inner.list? address

def statementAt? : Address → Block → Option Statement
  | [], _ => none
  | [s], block => block.statements[s]?
  | s :: b :: address, block => do
    let statement ← block.statements[s]?
    let inner ← statement.blocks[b]?
    inner.statementAt? address

/-- The block in which a change of the list at an address has been tried. -/
def changeList? (f : Block → Option Block) : Address → Block → Option Block
  | [], block => f block
  | [_], _ => none
  | s :: b :: address, block =>
    block.change? (fun statement => statement.change? (changeList? f address) b) s

/-- The block in which a change of the statement at an address has been tried. -/
def changeStatement? (f : Statement → Option Statement) : Address → Block → Option Block
  | [], _ => none
  | [s], block => block.change? f s
  | s :: b :: address, block =>
    block.change? (fun statement => statement.change? (changeStatement? f address) b) s

end Block

/-! ## Outlines -/

/-- What an address names. -/
inductive Node where
  | statement (statement : Statement)
  | list (list : Block)

mutual

/-- The nodes of a block, which has the given address, from the statement with an index on. -/
def Block.outlineFrom (address : Address) (i : Nat) : Block → List (Address × Node)
  | .done _ => []
  | .next _ statement rest =>
    (address ++ [i], .statement statement) :: statement.outlineFrom (address ++ [i]) 0
      ++ rest.outlineFrom address (i + 1)

/-- The nodes of a statement, which has the given address, from the block with an index on. -/
def Statement.outlineFrom (address : Address) (i : Nat) : Statement → List (Address × Node)
  | .plain _ => []
  | .block _ body rest =>
    (address ++ [i], .list body) :: body.outlineFrom (address ++ [i]) 0
      ++ rest.outlineFrom address (i + 1)

end

/-- The nodes below a script with their addresses. -/
def Block.outline (block : Block) : List (Address × Node) :=
  block.outlineFrom [] 0

end Retrofit.Script

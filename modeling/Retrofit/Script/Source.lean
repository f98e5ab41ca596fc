import Retrofit.Script.Grammar.Statement

/-!
# Scripts from source text

`ofText?` reads the source of a script into a tree, or nothing if the text is no script. A first
line that begins with `#!` belongs to the gap in front of the first statement.
-/

namespace Retrofit.Script

open Reader

/-- The readers for constructs that are nested at most `depth` times. -/
def nested (limit : Nat) : Nat → Nested
  | 0 => ⟨limit, fun _ => failure, fun _ => failure, failure, failure⟩
  | depth + 1 => {
      limit
      expression := fun mode => readExpression (nested limit depth) mode
      operand := fun mode => readOperand (nested limit depth) mode
      statement := fun cursor => readStatement (nested limit depth) cursor
      markup := fun cursor => readElement (nested limit depth) cursor }

/-- The text behind a first line that begins with `#!`. -/
def skipInterpreterLine (cs : List Char) : List Char :=
  match skipGap false 0 cs with
  | '#' :: '!' :: rest => rest.dropWhile (· != '\n')
  | _ => cs

/-- Reads a statement of the script itself. The text from the statement on tells how deep anything
in it can be nested. -/
def readOutermost : Reader Bool := do
  let depth := (← ahead).length + 1
  readStatement (nested depth depth)

/-- The readers for a script, at most `limit` statements long. -/
def outermost (limit : Nat) : Nested :=
  { nested limit 0 with statement := readOutermost }

def sourceTree? : Parser := fun cs => do
  let (nodes, cursor) ←
    (readStatements (outermost cs.length)).run ⟨skipInterpreterLine cs, cs.length, []⟩
  if cursor.rest.isEmpty then some ⟨"program", true, 0, cs.length, nodes.reverse⟩ else none

def ofText? (text : String) : Option Block :=
  parse? sourceTree? text

end Retrofit.Script

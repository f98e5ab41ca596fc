import Retrofit.Script.Semicolon
import Retrofit.Script.SourceTree

/-!
# Reading a script

**Readers.** A `Reader` consumes text in front of the cursor or fails. The cursor also holds the
blocks that were completed since the current statement began. `p <|> q` tries `q` from the same
place where `p` fails. A reader for a construct passes over the gap in front of it, one for a
statement begins at its first character.

**Ends of statements.** Behind an operand either the statement ends or more of it follows.
`whatFollows` finds out which; comments that belong to the statement are passed over in both cases.
-/

namespace Retrofit.Script

/-- What is left to read of a text, the length of the whole text, and the blocks of the current
statement, the last in front. -/
structure Cursor where
  rest : List Char
  length : Nat
  blocks : List SourceNode

/-- The place in front of what is left. -/
def Cursor.place (cursor : Cursor) : Nat :=
  cursor.length - cursor.rest.length

/-- Consumes text or fails. -/
abbrev Reader := StateT Cursor Option

namespace Reader

/-- The text in front of the cursor. -/
def ahead : Reader (List Char) :=
  return (← get).rest

def place : Reader Nat :=
  return (← get).place

/-- Puts the cursor in front of a text. -/
def moveTo (cs : List Char) : Reader Unit :=
  modify fun cursor => { cursor with rest := cs }

/-- Fails unless a condition holds. -/
def require (condition : Bool) : Reader Unit :=
  if condition then pure () else failure

def take (lexeme : List Char → Option (List Char)) : Reader Unit := do
  match lexeme (← ahead) with
  | some cs => moveTo cs
  | none => failure

/-- Passes over white space and comments. -/
def gap : Reader Unit := do
  moveTo (skipGap true 0 (← ahead))

/-- Consumes a symbol behind a gap. -/
def symbol (text : String) : Reader Unit := do
  gap
  take (Text.strip? text.toList)

/-- Consumes a symbol behind a gap if it is there. -/
def symbolIf (text : String) : Reader Bool := do
  let cs := skipGap true 0 (← ahead)
  match Text.strip? text.toList cs with
  | some rest => moveTo rest; return true
  | none => return false

/-- The first character behind the gap. -/
def nextChar : Reader Char := do
  return (skipGap true 0 (← ahead)).headD '\x00'

/-- Consumes a word behind a gap. -/
def word : Reader String := do
  gap
  match word? (← ahead) with
  | some (w, cs) => moveTo cs; return w
  | none => failure

/-- The word behind the gap, or an empty text. -/
def nextWord : Reader String := do
  return ((word? (skipGap true 0 (← ahead))).map Prod.fst).getD ""

/-- Consumes a certain word behind a gap. -/
def keyword (w : String) : Reader Unit := do
  require ((← word) == w)

/-- Consumes a certain word behind a gap if it is there. -/
def keywordIf (w : String) : Reader Bool := do
  if (← nextWord) == w then
    keyword w
    return true
  else return false

/-- Consumes a string behind a gap. -/
def string : Reader Unit := do
  gap
  take string?

/-- Repeats a step until it is done, at most `limit` times. -/
def iterate {α : Type} (step : α → Reader (ForInStep α)) : Nat → α → Reader α
  | 0, _ => failure
  | limit + 1, a => do
    match ← step a with
    | .done b => return b
    | .yield b => iterate step limit b

end Reader

/-! ## Ends of statements -/

/-- What follows an operand: the end of the statement, or more of it. -/
inductive Following where
  | ends (place : List Char)
  | continues (place : List Char)

/-- What follows in front of a text, after a number of characters that belong to a comment. The end
of the statement is looked for at a fresh place: behind a lexeme or a comment. -/
def followingFrom (commentEnds : Bool) : Bool → Nat → List Char → Following
  | _, n + 1, _ :: cs => followingFrom commentEnds true n cs
  | fresh, _, [] => if fresh && semicolonHere commentEnds [] then .ends [] else .continues []
  | fresh, 0, c :: cs =>
    if fresh && semicolonHere commentEnds (c :: cs) then .ends (c :: cs)
    else if isSpace c then followingFrom commentEnds false 0 cs
    else match commentLength? false (c :: cs) with
      | some 0 | none => .continues (c :: cs)
      | some (n + 1) => followingFrom commentEnds true n cs

/-- What follows in front of a text. -/
def following (commentEnds : Bool) (cs : List Char) : Following :=
  followingFrom commentEnds true 0 cs

namespace Reader

/-- What follows in front of the cursor. -/
def whatFollows (commentEnds : Bool) : Reader Following := do
  return following commentEnds (← ahead)

/-- Ends the statement, with a semicolon or without one. -/
def endStatement (commentEnds : Bool) : Reader Unit := do
  match ← whatFollows commentEnds with
  | .ends cs => moveTo cs
  | .continues (';' :: cs) => moveTo cs
  | .continues _ => failure

/-- Ends the construct where a statement may end, and tells whether it may. -/
def closeIf (commentEnds : Bool) : Reader Bool := do
  match ← whatFollows commentEnds with
  | .ends cs => moveTo cs; return true
  | .continues _ => return false

end Reader

end Retrofit.Script

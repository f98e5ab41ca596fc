import Retrofit.Script.Reader

/-!
# Readers for nested constructs

**Nesting.** The grammar is given level by level. A reader for a construct takes as parameter the
readers for what may stand inside it (`Nested`), and the level above takes the level below. Every
nested reading consumes a character first, so as many levels as there are characters are enough.

**Covering.** Whether `(a, b)` is a group or the parameters of a function shows only behind it, and
`[a, b]` may be an array or the target of an assignment. Such a text is read once, and its `Form`
tells what it can be.
-/

namespace Retrofit.Script

/-- Where an expression stands. -/
structure Mode where
  /-- A statement may end behind the expression. -/
  ends : Bool
  /-- The word `in` is left to what is around the expression. -/
  stopsAtIn : Bool

/-- Inside brackets, where statements do not end. -/
def Mode.inner : Mode := ⟨false, false⟩

/-- At the end of a statement. -/
def Mode.last : Mode := ⟨true, false⟩

/-- What a text that has been read as an expression can be. -/
structure Form where
  /-- A complete expression. -/
  value : Bool
  /-- A name, a member or a pattern, which can be bound. -/
  pattern : Bool
  /-- The target of an assignment with an operation. -/
  reference : Bool
  /-- A single name. -/
  name : Bool
  /-- A pattern with a default value. -/
  defaulted : Bool

namespace Form

/-- An expression and nothing else. -/
def plain : Form := ⟨true, false, false, false, false⟩

def word : Form := ⟨true, true, true, true, false⟩

def member : Form := ⟨true, true, true, false, false⟩

/-- An expression in parentheses. -/
def group : Form := ⟨true, false, true, false, false⟩

/-- Whether the text can be an element of a pattern. -/
def isElement (f : Form) : Bool :=
  f.pattern || f.defaulted

end Form

/-- Readers for what stands inside a construct, and a bound on repetitions. -/
structure Nested where
  limit : Nat
  expression : Mode → Reader Form
  operand : Mode → Reader Form
  /-- Tells whether a comment in markup style may follow the statement. -/
  statement : Reader Bool
  markup : Reader Unit

open Reader

/-- The place of the next symbol behind an operand, unless the statement ends before. -/
def Mode.symbolPlace? (mode : Mode) (cs : List Char) : Option (List Char) :=
  if mode.ends then
    match following false cs with
    | .ends _ => none
    | .continues place => some place
  else some (skipGap false 0 cs)

/-- Reads a complete expression. -/
def readValue (g : Nested) (mode : Mode) : Reader Unit := do
  require (← g.expression mode).value

/-- Reads the further expressions of a sequence. -/
def readMoreValues (g : Nested) (mode : Mode) : Reader Unit :=
  iterate (fun _ => do
    match mode.symbolPlace? (← ahead) with
    | some (',' :: cs) => moveTo cs; readValue g mode; return .yield ()
    | _ => return .done ()) g.limit ()

/-- Reads expressions with commas between them. -/
def readValues (g : Nested) (mode : Mode) : Reader Unit := do
  readValue g mode
  readMoreValues g mode

/-- Reads a condition in parentheses. -/
def readCondition (g : Nested) : Reader Unit := do
  symbol "("
  readValues g .inner
  symbol ")"

/-! ## Items in brackets -/

/-- What a list of items in brackets can be. -/
structure Items where
  /-- All items are expressions. -/
  values : Bool
  /-- All items are elements of patterns. -/
  elements : Bool
  /-- Some item is missing between commas. -/
  holes : Bool
  /-- Some item is spread. -/
  spreads : Bool
  /-- The list is empty or ends with a comma. -/
  isOpen : Bool

namespace Items

/-- No items so far. -/
def none : Items := ⟨true, true, false, false, true⟩

/-- Whether the items in parentheses are an expression. -/
def isGroup (items : Items) : Bool :=
  items.values && !items.holes && !items.spreads && !items.isOpen

/-- Whether the items in parentheses are parameters. -/
def isParameters (items : Items) : Bool :=
  items.elements && !items.holes

/-- The form of the items in square brackets. -/
def form (items : Items) : Form :=
  ⟨items.values, items.elements, false, false, false⟩

end Items

/-- Reads an item and adds it to those in front. -/
def readItem (g : Nested) (items : Items) : Reader Items := do
  let spread ← symbolIf "..."
  let form ← g.expression .inner
  return ⟨items.values && form.value, items.elements && form.isElement, items.holes,
    items.spreads || spread, false⟩

/-- Reads items up to a closing bracket. -/
def readItems (g : Nested) (close : String) : Reader Items :=
  iterate (fun items => do
    if ← symbolIf close then return .done items
    else if ← symbolIf "," then
      return .yield { items with holes := items.holes || items.isOpen, isOpen := true }
    else do
      require items.isOpen
      return .yield (← readItem g items)) g.limit .none

/-- Reads the items of an array behind its bracket. -/
def readArray (g : Nested) : Reader Form := do
  return (← readItems g "]").form

/-- Reads parameters in parentheses. -/
def readParameters (g : Nested) : Reader Unit := do
  symbol "("
  let items ← readItems g ")"
  require items.isParameters

/-- Reads arguments behind their parenthesis. -/
def readArguments (g : Nested) : Reader Unit := do
  let items ← readItems g ")"
  require items.values

/-! ## Blocks -/

/-- Reads a statement and returns its node, and whether a comment in markup style may follow. -/
def readNode (g : Nested) : Reader (SourceNode × Bool) := do
  let before ← get
  set { before with blocks := [] }
  let mayFollow ← g.statement
  let behind ← get
  set { behind with blocks := before.blocks }
  return (⟨"statement", true, before.place, behind.place, behind.blocks.reverse⟩, mayFollow)

/-- Reads the next statement of a list behind those in front of it, the last one first, unless the
list ends with a closing brace or the text. A comment in markup style between statements counts as a
statement; `mayFollow` tells whether it may stand there. -/
def readNext (g : Nested) (nodes : List SourceNode) (mayFollow : Bool) :
    Reader (ForInStep (List SourceNode × Bool)) := do
  moveTo (skipGap false 0 (← ahead))
  let cs ← ahead
  match if mayFollow then commentLength? true cs else none with
  | some n =>
    let start ← place
    moveTo (cs.drop n)
    return .yield (⟨"html_comment", true, start, ← place, []⟩ :: nodes, true)
  | none =>
    if cs.isEmpty || cs.head? == some '}' then return .done (nodes, mayFollow)
    else do
      let (node, mayFollow) ← readNode g
      return .yield (node :: nodes, mayFollow)

/-- Reads a list of statements. The nodes are returned from the last to the first. -/
def readStatements (g : Nested) : Reader (List SourceNode) := do
  let (nodes, _) ← iterate (fun (nodes, mayFollow) => readNext g nodes mayFollow) (g.limit + 1)
    ([], true)
  return nodes

/-- The node of a block between two places, with the nodes in it from the last to the first. The
block begins with a brace in front of the first place and ends with one behind the other. -/
def blockNode (opened closed : Nat) (nodes : List SourceNode) : SourceNode :=
  ⟨blockKind, true, opened - 1, closed + 1,
    ⟨"\x7b", false, opened - 1, opened, []⟩ :: nodes.reverse
      ++ [⟨"\x7d", false, closed, closed + 1, []⟩]⟩

/-- Reads a block with its braces, and tells whether it holds statements. -/
def readBraces (g : Nested) : Reader Bool := do
  symbol "\x7b"
  let opened ← place
  let nodes ← readStatements g
  let closed ← place
  symbol "\x7d"
  modify fun cursor => { cursor with blocks := blockNode opened closed nodes :: cursor.blocks }
  return !nodes.isEmpty

/-- Reads a block that is the body of a construct, with the end of the statement if it may end
behind it. -/
def readBody (g : Nested) (commentEnds : Bool) : Reader Bool := do
  let _ ← readBraces g
  closeIf commentEnds

end Retrofit.Script

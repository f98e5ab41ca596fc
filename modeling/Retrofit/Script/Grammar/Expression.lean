import Retrofit.Script.Grammar.Markup
import Retrofit.Script.Grammar.Member

/-!
# Expressions

An expression is a chain of operands with symbols between them; how tightly the symbols bind does
not show in where statements begin and end. An operand is a unit with prefixes in front of it and
accesses, calls and assignments behind it. An assignment or an arrow function takes all that
follows.
-/

namespace Retrofit.Script

open Reader

/-! ## Units -/

/-- The text behind a piece of a template, up to its end (`true`) or to an expression, after a
number of characters that belong to an escape. -/
def templateText? : Nat → List Char → Option (List Char × Bool)
  | _, [] => none
  | n + 1, _ :: cs => templateText? n cs
  | 0, c :: cs =>
    if c == '`' then some (cs, true)
    else if c == '\x00' then none
    else if c == '\\' then (escapeLength? cs).bind fun n => templateText? n cs
    else if c == '$' && cs.head? == some '\x7b' then some (cs.drop 1, false)
    else templateText? 0 cs

/-- Reads a template behind its first quote. -/
def readTemplate (g : Nested) : Reader Unit :=
  iterate (fun _ => do
    match templateText? 0 (← ahead) with
    | none => failure
    | some (cs, true) => moveTo cs; return .done ()
    | some (cs, false) =>
      moveTo cs
      readValues g .inner
      symbol "\x7d"
      return .yield ()) g.limit ()

/-- The words that begin a statement or an operand and are no names there. -/
def statementWords : List String :=
  ["import", "debugger", "var", "const", "function", "class", "if", "switch", "for", "while", "do",
    "try", "with", "break", "continue", "return", "throw", "this", "super", "true", "false", "null",
    "new", "typeof", "void", "delete", "await", "yield"]

/-- Whether the text behind an opening brace at the start of a statement begins like a pair of an
object, so that it is an object if it can be one. -/
def startsPair (cs : List Char) : Bool :=
  match word? (skipGap true 0 cs) with
  | some (w, behind) =>
    !statementWords.contains w && (skipGap true 0 behind).head? == some ':'
  | none => false

/-- Whether the text behind an opening brace may be an object where it cannot be a block. -/
def mayBeObject (cs : List Char) : Bool :=
  let cs := skipGap true 0 cs
  match word? cs with
  | some (w, behind) =>
    !statementWords.contains w
      && !((skipGap true 0 behind).head?.map fun c => ",=\x7d".toList.contains c).getD true
  | none => true

/-- Reads the body of an arrow function behind the arrow. -/
def readArrowBody (g : Nested) (mode : Mode) : Reader Unit := do
  gap
  match ← ahead with
  | '\x7b' :: cs =>
    let block : Reader Unit := do
      let _ ← readBody g false
    if startsPair cs then readValue g mode <|> block
    else if mayBeObject cs then block <|> readValue g mode
    else block
  | _ => readValue g mode

/-- Reads an arrow with the body behind it if it is there. -/
def readArrowIf (g : Nested) (mode : Mode) : Reader Bool := do
  match (mode.symbolPlace? (← ahead)).bind (Text.strip? "=>".toList) with
  | some cs =>
    moveTo cs
    readArrowBody g mode
    return true
  | none => return false

/-- Reads a group or the parameters of an arrow function behind the parenthesis. -/
def readGroup (g : Nested) (mode : Mode) : Reader Form := do
  let items ← readItems g ")"
  if ← readArrowIf g mode then
    require items.isParameters
    return .plain
  else do
    require items.isGroup
    return .group

/-- Reads a name, or an arrow function whose only parameter it is. -/
def readName (g : Nested) (mode : Mode) : Reader Form := do
  if ← readArrowIf g mode then return .plain else return .word

/-- Reads what stands behind the word `async`: a function, an arrow function, or nothing if the
word is a name. -/
def readAsync (g : Nested) (mode : Mode) : Reader Form := do
  match mode.symbolPlace? (← ahead) with
  | none => return .word
  | some ('(' :: cs) =>
    moveTo cs
    let items ← readItems g ")"
    if ← readArrowIf g mode then
      require items.isParameters
    else require items.values
    return .plain
  | some cs =>
    match word? cs with
    | some ("function", rest) =>
      moveTo rest
      let _ ← readFunction g false
      return .plain
    | some (w, rest) =>
      if w == "in" || w == "instanceof" then return .word
      else do
        let before ← get
        moveTo rest
        if ← readArrowIf g mode then return .plain
        else do
          set before
          return .word
    | none => readName g mode

/-- Reads what stands behind the word `new`. -/
def readNew (g : Nested) (mode : Mode) : Reader Form := do
  if ← symbolIf "." then
    keyword "target"
    return .plain
  else do
    require (!"+-!~<#".toList.contains (← nextChar))
    let word ← nextWord
    require (word ∉ ["typeof", "void", "delete", "await", "yield"])
    let form ← g.operand mode
    require form.value
    return .plain

/-- Reads what stands behind the word `yield`. -/
def readYield (g : Nested) (mode : Mode) : Reader Form := do
  match mode.symbolPlace? (← ahead) with
  | none => return .plain
  | some ('*' :: cs) =>
    moveTo cs
    readValue g mode
    return .plain
  | some _ =>
    readValue g mode <|> pure ()
    return .plain

/-- Reads the operand behind a prefix. -/
def readPrefixed (g : Nested) (mode : Mode) : Reader Form := do
  require (← g.operand mode).value
  return .plain

/-- Reads a unit that begins with a word. -/
def readWordUnit (g : Nested) (mode : Mode) : Reader Form := do
  let w ← word
  match w with
  | "function" =>
    let _ ← readFunction g false
    return .plain
  | "class" =>
    let _ ← readClass g
    return .plain
  | "import" =>
    require ((← nextChar) == '(' || (← nextChar) == '.')
    return .plain
  | "this" | "super" | "true" | "false" | "null" => return .plain
  | "async" => readAsync g mode
  | "new" => readNew g mode
  | "yield" => readYield g mode
  | "typeof" | "void" | "delete" | "await" => readPrefixed g mode
  | _ => readName g mode

/-- Reads a unit, or a prefix with its operand. -/
def readUnit (g : Nested) (mode : Mode) : Reader Form := do
  gap
  match ← ahead with
  | [] => failure
  | c :: cs =>
    match c with
    | '(' => moveTo cs; readGroup g mode
    | '[' => moveTo cs; readArray g
    | '\x7b' => moveTo cs; readObject g
    | '`' => moveTo cs; readTemplate g; return .plain
    | '"' | '\'' => take string?; return .plain
    | '/' => take pattern?; return .plain
    | '<' => g.markup; return .plain
    | '@' =>
      readDecorators g
      keyword "class"
      let _ ← readClass g
      return .plain
    | '#' =>
      take privateName?
      require ((← nextWord) == "in")
      return .plain
    | '!' | '~' => moveTo cs; readPrefixed g mode
    | '+' | '-' =>
      moveTo (if cs.head? == some c then cs.drop 1 else cs)
      readPrefixed g mode
    | _ =>
      if c == '.' || c.isDigit then
        take numeral?
        return .plain
      else readWordUnit g mode

/-! ## What follows a unit -/

/-- Reads an assignment behind its symbol. -/
def readAssigned (g : Nested) (mode : Mode) (defaulted : Bool) : Reader (ForInStep Form) := do
  readValue g mode
  return .done ⟨true, false, false, false, defaulted⟩

/-- Reads a name behind a point. -/
def readMemberName : Reader Unit := do
  gap
  match ← ahead with
  | '#' :: _ => take privateName?
  | _ =>
    let _ ← word

/-- Reads an access, a call or an assignment behind an operand. -/
def readSuffix (g : Nested) (mode : Mode) (form : Form) : Reader (ForInStep Form) := do
  match mode.symbolPlace? (← ahead) with
  | none => return .done form
  | some cs =>
    match symbol? cs with
    | none => return .done form
    | some s =>
      let access (read : Reader Unit) (result : Form) : Reader (ForInStep Form) := do
        require form.value
        moveTo (cs.drop s.length)
        read
        return .yield result
      let index : Reader Unit := do
        readValues g .inner
        symbol "]"
      match s with
      | "." => access readMemberName .member
      | "[" => access index .member
      | "(" => access (readArguments g) .plain
      | "`" => access (readTemplate g) .plain
      | "++" | "--" => access (pure ()) .plain
      | "?." =>
        match (skipGap true 0 (cs.drop 2)).head? with
        | some '(' => access (do symbol "("; readArguments g) .plain
        | some '[' => access (do symbol "["; index) .member
        | _ => access readMemberName .member
      | "=" =>
        require (form.pattern || form.reference)
        moveTo (cs.drop 1)
        readAssigned g mode form.pattern
      | _ =>
        if compoundSymbols.contains s then
          require form.reference
          moveTo (cs.drop s.length)
          readAssigned g mode false
        else return .done form

/-- Reads all accesses, calls and assignments behind an operand. -/
def readSuffixes (g : Nested) (mode : Mode) (form : Form) : Reader Form :=
  iterate (readSuffix g mode) g.limit form

def readOperand (g : Nested) (mode : Mode) : Reader Form := do
  readSuffixes g mode (← readUnit g mode)

/-! ## Chains of operands -/

/-- Reads a symbol between operands and the operand behind it, or the rest of a condition. -/
def readInfix (g : Nested) (mode : Mode) (form : Form) : Reader (ForInStep Form) := do
  match mode.symbolPlace? (← ahead) with
  | none => return .done form
  | some cs =>
    let operand (cs : List Char) : Reader (ForInStep Form) := do
      require form.value
      moveTo cs
      require (← readOperand g mode).value
      return .yield .plain
    match symbol? cs with
    | some "?" =>
      require form.value
      moveTo (cs.drop 1)
      readValue g .inner
      symbol ":"
      readValue g mode
      return .done .plain
    | some s =>
      if infixSymbols.contains s then operand (cs.drop s.length) else return .done form
    | none =>
      match word? cs with
      | some ("instanceof", rest) => operand rest
      | some ("in", rest) => if mode.stopsAtIn then return .done form else operand rest
      | _ => return .done form

/-- Reads what follows an operand in a chain. -/
def readChain (g : Nested) (mode : Mode) (form : Form) : Reader Form :=
  iterate (readInfix g mode) g.limit form

def readExpression (g : Nested) (mode : Mode) : Reader Form := do
  readChain g mode (← readOperand g mode)

end Retrofit.Script

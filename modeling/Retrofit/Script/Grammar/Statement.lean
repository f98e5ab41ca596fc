import Retrofit.Script.Grammar.Expression

/-!
# Statements

**Beginnings.** A word that begins a statement is one only there; elsewhere it is a name. A brace
opens a block, or an object where the text can only be one, or a pair shows. A function or class
with a name is declared, unless what follows can only carry an expression on.

**Ends.** A reader returns whether a comment in markup style may follow. It may not behind a brace
at which the statement could have ended and did not.
-/

namespace Retrofit.Script

open Reader

/-! ## Expressions as statements -/

/-- Reads the rest of a statement that begins with an operand. -/
def finishExpression (g : Nested) (form : Form) : Reader Bool := do
  let form ← readSuffixes g .last form
  let form ← readChain g .last form
  require form.value
  readMoreValues g .last
  endStatement false
  return true

def readExpressionStatement (g : Nested) : Reader Bool := do
  readValues g .last
  endStatement false
  return true

/-- The symbols that carry an expression on and begin no statement. -/
def carryingSymbols : List String :=
  ["===", "!==", ">>>", "==", "!=", "<=", ">=", "&&", "||", "??", "?.", "<<", ">>", "**", ".", "?",
    ",", ">", "*", "%", "&", "|", "^"]

/-- Whether what follows can only carry an expression on. -/
def carriesOn (cs : List Char) : Bool :=
  match symbol? cs with
  | some "." => !((cs.drop 1).head?.map Char.isDigit).getD false
  | some s => carryingSymbols.contains s
  | none =>
    match word? cs with
    | some (w, _) => w == "in" || w == "instanceof"
    | none => false

/-- Ends a declaration of a function or class, or reads on if it turns out to be an expression. -/
def finishNamed (g : Nested) (named : Bool) : Reader Bool := do
  if !named then finishExpression g .plain
  else if ← closeIf false then return true
  else if carriesOn (skipGap false 0 (← ahead)) then finishExpression g .plain
  else return false

/-- Reads a statement that begins with a brace. -/
def readBraced (g : Nested) : Reader Bool := do
  let cs := (← ahead).drop 1
  let block : Reader Bool := do
    let before ← get
    let filled ← readBraces g
    if ← closeIf filled then return true
    else if !filled && carriesOn (skipGap false 0 (← ahead)) then
      modify fun cursor => { cursor with blocks := before.blocks }
      finishExpression g .plain
    else return false
  if startsPair cs then readExpressionStatement g <|> block
  else if mayBeObject cs then block <|> readExpressionStatement g
  else block

/-! ## Declarations -/

/-- Reads what a declaration binds: a name or a pattern. -/
def readBinding (g : Nested) : Reader Unit := do
  gap
  match ← ahead with
  | '[' :: cs =>
    moveTo cs
    require (← readArray g).pattern
  | '\x7b' :: cs =>
    moveTo cs
    require (← readObject g).pattern
  | _ =>
    let _ ← word

/-- Reads the bindings of a declaration with their values, and ends the statement. -/
def readDeclarations (g : Nested) : Reader Bool := do
  iterate (fun _ => do
    readBinding g
    let next ← whatFollows true
    let next ← match next with
      | .continues ('=' :: cs) =>
        moveTo cs
        readValue g .last
        whatFollows false
      | _ => pure next
    match next with
    | .ends cs => moveTo cs; return .done ()
    | .continues (';' :: cs) => moveTo cs; return .done ()
    | .continues (',' :: cs) => moveTo cs; return .yield ()
    | .continues _ => failure) g.limit ()
  return true

/-- Whether the word `let`, behind which the text follows, begins a declaration. -/
def declares (cs : List Char) : Bool :=
  match following false cs with
  | .ends _ => false
  | .continues (c :: cs) =>
    c == '[' || c == '\x7b' || match word? (c :: cs) with
      | some (w, _) => w != "in" && w != "instanceof"
      | none => false
  | .continues [] => false

/-- The text behind the word `function`, if it stands behind the word `async`, in front of the
text. -/
def behindFunction? (cs : List Char) : Option (List Char) :=
  match following false cs with
  | .ends _ => none
  | .continues cs =>
    match word? cs with
    | some ("function", rest) => some rest
    | _ => none

/-! ## Imports and exports -/

/-- Reads names in braces, each with another name if it has one. -/
def readNameList (g : Nested) : Reader Unit := do
  symbol "\x7b"
  let name : Reader Unit := do
    match ← nextChar with
    | '"' | '\'' => string
    | _ =>
      let _ ← word
  iterate (fun _ => do
    if ← symbolIf "\x7d" then return .done ()
    else do
      name
      if ← keywordIf "as" then name
      if ← symbolIf "," then return .yield ()
      else do
        symbol "\x7d"
        return .done ()) g.limit ()

/-- Reads where an import or export comes from. -/
def readSource : Reader Unit := do
  keyword "from"
  string

/-- Reads an import behind its first word. -/
def readImport (g : Nested) : Reader Bool := do
  let several : Reader Unit := do
    if ← symbolIf "*" then
      keyword "as"
      let _ ← word
    else readNameList g
  match ← nextChar with
  | '"' | '\'' => string
  | '*' | '\x7b' =>
    several
    readSource
  | _ =>
    let _ ← word
    if ← symbolIf "," then several
    readSource
  match ← whatFollows true with
  | .continues cs =>
    if (word? cs).map Prod.fst == some "with" then
      keyword "with"
      symbol "\x7b"
      require (← readObject g).value
    endStatement true
  | .ends cs => moveTo cs
  return true

/-- Reads the value of a default export. -/
def readDefaultValue (g : Nested) : Reader Bool := do
  readValue g .last
  endStatement false
  return true

/-- Reads a default export behind the word `default`: a declaration of any kind, or a value. -/
def readDefault (g : Nested) : Reader Bool := do
  match ← nextWord with
  | "function" =>
    let _ ← word
    finishNamed g (← readFunction g false)
  | "class" =>
    let _ ← word
    finishNamed g (← readClass g)
  | "var" | "const" =>
    let _ ← word
    readDeclarations g
  | "let" =>
    if declares ((skipGap true 0 (← ahead)).drop 3) then
      let _ ← word
      readDeclarations g
    else readDefaultValue g
  | "async" =>
    let before ← ahead
    match behindFunction? ((skipGap true 0 before).drop 5) with
    | some rest =>
      moveTo rest
      finishNamed g (← readFunction g false)
    | none => readDefaultValue g
  | _ =>
    gap
    let decorated := (← nextChar) == '@'
    readDecorators g
    if decorated then
      keyword "class"
      finishNamed g (← readClass g)
    else readDefaultValue g

/-- Reads an export behind its first word. -/
def readExport (g : Nested) : Reader Bool := do
  match ← nextChar with
  | '*' =>
    symbol "*"
    if ← keywordIf "as" then
      match ← nextChar with
      | '"' | '\'' => string
      | _ =>
        let _ ← word
    readSource
    endStatement true
    return true
  | '\x7b' =>
    readNameList g
    match ← whatFollows true with
    | .ends cs => moveTo cs
    | .continues _ =>
      if (← nextWord) == "from" then readSource
      endStatement true
    return true
  | _ =>
    readDecorators g
    match ← word with
    | "default" => readDefault g
    | "var" | "let" | "const" => readDeclarations g
    | "class" =>
      require (← readClass g)
      closeIf true
    | "function" =>
      require (← readFunction g true)
      closeIf true
    | "async" =>
      keyword "function"
      require (← readFunction g true)
      closeIf true
    | _ => failure

/-! ## Loops and branches -/

/-- Reads a statement inside another one. -/
def readInner (g : Nested) : Reader Bool := do
  gap
  g.statement

/-- Reads the head of a loop over the members or elements of a value, in parentheses. -/
def readMemberHead (g : Nested) : Reader Unit := do
  symbol "("
  let declared : Reader Unit := do
    match ← word with
    | "var" =>
      readBinding g
      if ← symbolIf "=" then readValue g ⟨false, true⟩
    | "let" | "const" => readBinding g
    | _ => failure
  let target : Reader Unit := do
    let form ← g.operand ⟨false, true⟩
    require (form.pattern || form.reference)
  let rest : Reader Unit := do
    let w ← word
    require (w == "in" || w == "of")
    readValues g .inner
    symbol ")"
  (do declared; rest) <|> (do target; rest)

/-- Reads the head of a loop with a start, a condition and a step, in parentheses. -/
def readStepHead (g : Nested) : Reader Unit := do
  symbol "("
  let w ← nextWord
  if w == "var" || w == "const" || (w == "let" && declares ((skipGap true 0 (← ahead)).drop 3)) then
    let _ ← word
    let _ ← readDeclarations g
  else if !(← symbolIf ";") then
    readValues g .inner
    symbol ";"
  if !(← symbolIf ";") then
    readValues g .inner
    symbol ";"
  if !(← symbolIf ")") then
    readValues g .inner
    symbol ")"

/-- Reads the branches of a switch behind their brace. -/
def readBranches (g : Nested) : Reader Unit :=
  iterate (fun inBranch => do
    if ← symbolIf "\x7d" then return .done false
    else
      match ← nextWord with
      | "case" =>
        keyword "case"
        readValues g .inner
        symbol ":"
        return .yield true
      | "default" =>
        keyword "default"
        symbol ":"
        return .yield true
      | _ =>
        require inBranch
        let _ ← readInner g
        return .yield true) g.limit false *> pure ()

/-- Reads a statement that begins with a word of the language, behind that word; none if the word
begins no statement of a kind of its own. -/
def readWordStatement? (g : Nested) (w : String) : Option (Reader Bool) :=
  match w with
  | "var" | "const" => some (readDeclarations g)
  | "function" => some do finishNamed g (← readFunction g false)
  | "class" => some do finishNamed g (← readClass g)
  | "if" => some do
    readCondition g
    let mayFollow ← readInner g
    if ← keywordIf "else" then readInner g else return mayFollow
  | "while" | "with" => some do
    readCondition g
    readInner g
  | "do" => some do
    let _ ← readInner g
    keyword "while"
    readCondition g
    match ← whatFollows true with
    | .ends cs => moveTo cs; return true
    | .continues (';' :: cs) => moveTo cs; return true
    | .continues _ => return false
  | "for" => some do
    let _ ← keywordIf "await"
    readMemberHead g <|> readStepHead g
    readInner g
  | "switch" => some do
    readCondition g
    symbol "\x7b"
    readBranches g
    return true
  | "try" => some do
    let mut mayFollow ← readBody g true
    if ← keywordIf "catch" then
      if ← symbolIf "(" then
        readBinding g
        symbol ")"
      mayFollow ← readBody g true
    if ← keywordIf "finally" then
      mayFollow ← readBody g true
    return mayFollow
  | "return" => some do
    match ← whatFollows true with
    | .ends cs => moveTo cs
    | .continues (';' :: cs) => moveTo cs
    | .continues _ =>
      readValues g .last
      endStatement false
    return true
  | "throw" => some (readExpressionStatement g)
  | "break" | "continue" => some do
    match ← whatFollows true with
    | .ends cs => moveTo cs
    | .continues (';' :: cs) => moveTo cs
    | .continues _ =>
      let _ ← word
      endStatement true
    return true
  | "debugger" => some do
    endStatement true
    return true
  | _ => none

/-! ## All statements -/

/-- Reads a statement that begins with a word. -/
def readNamedStatement (g : Nested) (w : String) (behind : List Char) : Reader Bool := do
  let next := skipGap true 0 behind
  match readWordStatement? g w with
  | some read =>
    moveTo behind
    read
  | none =>
    if next.head? == some ':' && !statementWords.contains w then
      moveTo (next.drop 1)
      readInner g
    else
      match w with
      | "let" =>
        if declares behind then
          moveTo behind
          readDeclarations g
        else readExpressionStatement g
      | "import" =>
        if next.head? == some '(' || next.head? == some '.' then readExpressionStatement g
        else do
          moveTo behind
          readImport g
      | "export" =>
        if (next.head?.map fun c => "*\x7b@".toList.contains c).getD false
            || ((word? next).map Prod.fst).any
              ["default", "var", "let", "const", "class", "function", "async"].contains then
          moveTo behind
          readExport g
        else readExpressionStatement g
      | "async" =>
        match behindFunction? behind with
        | some rest =>
          moveTo rest
          finishNamed g (← readFunction g false)
        | none => readExpressionStatement g
      | _ => readExpressionStatement g

/-- Reads a statement, from its first character on. -/
def readStatement (g : Nested) : Reader Bool := do
  match ← ahead with
  | [] => failure
  | ';' :: cs => moveTo cs; return true
  | '\x7b' :: _ => readBraced g
  | '@' :: _ =>
    readDecorators g
    match ← word with
    | "class" => finishNamed g (← readClass g)
    | "export" => readExport g
    | _ => failure
  | cs =>
    match word? cs with
    | some (w, behind) => readNamedStatement g w behind
    | none => readExpressionStatement g

end Retrofit.Script

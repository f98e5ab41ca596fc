import Retrofit.Script.Grammar.Basic

/-!
# Functions, classes and objects

Members of classes and objects begin alike: words such as `static` and `get` qualify a member where
another key follows them, and are keys themselves where none does.
-/

namespace Retrofit.Script

open Reader

/-! ## Functions -/

/-- Reads a function behind its first word and tells whether it has a name. -/
def readFunction (g : Nested) (commentEnds : Bool) : Reader Bool := do
  let _ ← symbolIf "*"
  let named := (← nextChar) != '('
  if named then
    let _ ← word
  readParameters g
  let _ ← readBody g commentEnds
  return named

/-! ## Decorators -/

def readDecorators (g : Nested) : Reader Unit :=
  iterate (fun _ => do
    if ← symbolIf "@" then
      let _ ← word
      iterate (fun _ => do
        if ← symbolIf "." then
          let _ ← word
          return .yield ()
        else return .done ()) g.limit ()
      if ← symbolIf "(" then readArguments g
      return .yield ()
    else return .done ()) g.limit ()

/-! ## Keys -/

inductive Key where
  | word (w : String)
  | other

/-- Whether a character can begin a key. -/
def startsKey (cs : List Char) : Bool :=
  match cs with
  | c :: _ => "\"'[#.".toList.contains c || c.isDigit || (word? cs).isSome
  | [] => false

def readKey (g : Nested) : Reader Key := do
  gap
  match ← ahead with
  | '[' :: cs =>
    moveTo cs
    readValue g .inner
    symbol "]"
    return .other
  | '#' :: _ => take privateName?; return .other
  | '"' :: _ | '\'' :: _ => take string?; return .other
  | cs =>
    if (word? cs).isSome then return .word (← word)
    else do
      take numeral?
      return .other

/-- The place of a word among those that qualify a member; a later one has a greater place. -/
def qualifierRank? (w : String) : Option Nat :=
  match w with
  | "static" => some 1
  | "async" => some 2
  | "get" | "set" => some 3
  | _ => none

/-- Reads the words and the star that qualify a member, and its key. In a class a word at the end
of a line is a key. Tells whether anything qualifies the member. -/
def readQualifiedKey (g : Nested) (inClass : Bool) : Reader (Key × Bool) := do
  let (rank, key) ← iterate (fun (rank, _) => do
    let starred ← if rank < 3 then symbolIf "*" else pure false
    if starred then return .yield (3, none)
    else do
      let key ← readKey g
      match key with
      | .other => return .done (rank, some key)
      | .word w =>
        match qualifierRank? w with
        | none => return .done (rank, some key)
        | some r =>
          let ended := inClass && semicolonHere true (← ahead)
          let cs := skipGap true 0 (← ahead)
          if rank < r && !ended && (startsKey cs || (r < 3 && cs.head? == some '*')) then
            return .yield (r, none)
          else return .done (rank, some key)) 6 (0, (none : Option Key))
  match key with
  | some key => return (key, rank != 0)
  | none => failure

/-! ## Objects -/

/-- Reads a member of an object and returns what it can be. -/
def readObjectMember (g : Nested) : Reader Form := do
  if ← symbolIf "..." then
    let form ← g.expression .inner
    return ⟨form.value, form.pattern, false, false, false⟩
  else do
    let decorated := (← nextChar) == '@'
    readDecorators g
    let (key, qualified) ← readQualifiedKey g false
    match ← nextChar with
    | '(' =>
      readParameters g
      let _ ← readBody g true
      return .plain
    | ':' =>
      require (!decorated && !qualified)
      symbol ":"
      let form ← g.expression .inner
      return ⟨form.value, form.isElement, false, false, false⟩
    | '=' =>
      require (!decorated && !qualified)
      match key with
      | .word _ =>
        symbol "="
        readValue g .inner
        return ⟨false, true, false, false, false⟩
      | .other => failure
    | _ =>
      require (!decorated && !qualified)
      match key with
      | .word _ => return .word
      | .other => failure

/-- Reads the members of an object behind its brace. -/
def readObject (g : Nested) : Reader Form := do
  let items ← iterate (fun items => do
    if ← symbolIf "\x7d" then return .done items
    else if ← symbolIf "," then return .yield { items with isOpen := true }
    else do
      require items.isOpen
      let form ← readObjectMember g
      return .yield { items with
        values := items.values && form.value
        elements := items.elements && form.pattern
        isOpen := false }) g.limit Items.none
  return items.form

/-! ## Classes -/

def readClassMember (g : Nested) : Reader Unit := do
  readDecorators g
  let cs := skipGap true 0 (← ahead)
  let opensBlock := match word? cs with
    | some ("static", behind) => (skipGap true 0 behind).head? == some '\x7b'
    | _ => false
  if opensBlock then
    keyword "static"
    let _ ← readBody g true
  else do
    let _ ← readQualifiedKey g true
    if (← nextChar) == '(' then
      readParameters g
      let _ ← readBody g true
    else do
      match ← whatFollows true with
      | .ends place => moveTo place
      | .continues ('=' :: place) =>
        moveTo place
        readValue g .last
        endStatement false
      | .continues _ => endStatement true

/-- Reads a class behind its first word and tells whether it has a name. -/
def readClass (g : Nested) : Reader Bool := do
  let next ← nextWord
  let named := next != "" && next != "extends"
  if named then
    let _ ← word
  if ← keywordIf "extends" then
    readValue g .inner
  symbol "\x7b"
  iterate (fun _ => do
    if ← symbolIf "\x7d" then return .done ()
    else if ← symbolIf ";" then return .yield ()
    else do
      readClassMember g
      return .yield ()) g.limit ()
  return named

end Retrofit.Script

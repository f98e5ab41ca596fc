import Retrofit.Script.Grammar.Basic

/-!
# Markup in expressions

An element such as `<a b="c">text</a>`: a tag with attributes, then text, elements and expressions
in braces up to a closing tag. An element may close itself, and a tag may have no name.
-/

namespace Retrofit.Script

open Reader

/-- The text behind a name in markup, in which hyphens may stand. -/
def markupName? (cs : List Char) : Option (List Char) := do
  let (_, rest) ← word? cs
  return match rest with
  | '-' :: _ => rest.dropWhile fun c => c.isAlphanum || c == '_' || c == '$' || c == '-'
  | _ => rest

/-- Reads a name with its qualifications. -/
def readMarkupName (g : Nested) : Reader Unit := do
  gap
  take markupName?
  iterate (fun _ => do
    let c ← nextChar
    if c == '.' || c == ':' then
      symbol c.toString
      gap
      take markupName?
      return .yield ()
    else return .done ()) g.limit ()

/-- The length of a character reference behind its ampersand. -/
def referenceLength? (cs : List Char) : Option Nat :=
  let bounded (n : Nat) (most : Nat) (behind : List Char) : Option Nat :=
    if 0 < n && n ≤ most && behind.head? == some ';' then some (n + 1) else none
  match cs with
  | '#' :: x :: digits =>
    if x == 'x' || x == 'X' then
      let n := (digits.takeWhile isHexDigit).length
      (bounded n 6 (digits.drop n)).map (· + 2)
    else
      let n := ((x :: digits).takeWhile Char.isDigit).length
      (bounded n 5 ((x :: digits).drop n)).map (· + 1)
  | _ =>
    let n := (cs.takeWhile Char.isAlpha).length
    bounded n 30 (cs.drop n)

/-- The text behind the quote that closes an attribute. An ampersand in front of a letter or a
number sign begins a character reference. -/
def closeAttribute? (quote : Char) : Nat → List Char → Option (List Char)
  | _, [] => none
  | n + 1, _ :: cs => closeAttribute? quote n cs
  | 0, c :: cs =>
    if c == quote then some cs
    else if c == '&' && (cs.head?.map fun d => d == '#' || d.isAlpha).getD false then
      (referenceLength? cs).bind fun n => closeAttribute? quote n cs
    else closeAttribute? quote 0 cs

/-- Reads an expression in braces, which may be missing or spread. -/
def readMarkupExpression (g : Nested) : Reader Unit := do
  symbol "\x7b"
  if ← symbolIf "\x7d" then return ()
  if ← symbolIf "..." then readValue g .inner else readValues g .inner
  symbol "\x7d"

def readAttributeValue (g : Nested) : Reader Unit := do
  gap
  match ← ahead with
  | '"' :: _ => take fun cs => closeAttribute? '"' 0 (cs.drop 1)
  | '\'' :: _ => take fun cs => closeAttribute? '\'' 0 (cs.drop 1)
  | '<' :: _ => g.markup
  | _ => readMarkupExpression g

def readAttributes (g : Nested) : Reader Unit :=
  iterate (fun _ => do
    match ← nextChar with
    | '\x7b' => readMarkupExpression g; return .yield ()
    | '/' | '>' => return .done ()
    | _ =>
      readMarkupName g
      if ← symbolIf "=" then readAttributeValue g
      return .yield ()) g.limit ()

/-- Reads what stands between tags, and the closing tag. -/
def readContent (g : Nested) : Reader Unit :=
  iterate (fun _ => do
    moveTo ((← ahead).dropWhile fun c => !"<>\x7b\x7d&\x00".toList.contains c)
    match ← ahead with
    | '<' :: '/' :: cs =>
      moveTo cs
      if (← nextChar) != '>' then readMarkupName g
      symbol ">"
      return .done ()
    | '<' :: _ => g.markup; return .yield ()
    | '\x7b' :: _ => readMarkupExpression g; return .yield ()
    | '&' :: cs =>
      match referenceLength? cs with
      | some n => moveTo (cs.drop n); return .yield ()
      | none => failure
    | _ => failure) g.limit ()

def readElement (g : Nested) : Reader Unit := do
  symbol "<"
  if ← symbolIf ">" then readContent g
  else do
    readMarkupName g
    readAttributes g
    if ← symbolIf "/>" then return ()
    else do
      symbol ">"
      readContent g

end Retrofit.Script

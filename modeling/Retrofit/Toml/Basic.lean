/-!
# Settings files

**Documents.** A settings file is a TOML document that gives texts and switches to bare or quoted
keys, one to a line. Tables, dotted keys and all other kinds of values are refused, since no setting
takes one.

**Texts.** A text stands between double quotes, in which a backslash begins an escape, or between
single quotes, in which it does not. Between three quotes it may have several lines; a line break
right behind the opening quotes does not count, and every line break is a single character.
-/

namespace Retrofit.Toml

/-- A value of a setting. -/
inductive Scalar where
  | text (value : String)
  | switch (value : Bool)
deriving DecidableEq, Repr

/-! ## Characters -/

/-- White space within a line. -/
def isSpace (c : Char) : Bool :=
  c = ' ' || c = '\t'

/-- Whether a character may stand in a comment. -/
def isPlain (c : Char) : Bool :=
  c = '\t' || (' ' ≤ c && c ≠ '\x7f')

/-- Whether a character stands for itself between double quotes. -/
def isBasic (c : Char) : Bool :=
  isPlain c && c ≠ '"' && c ≠ '\\'

/-- Whether a character stands for itself between single quotes. -/
def isLiteral (c : Char) : Bool :=
  isPlain c && c ≠ '\''

/-- Whether a character may stand in a key without quotes. -/
def isBare (c : Char) : Bool :=
  c.isAlphanum || c = '_' || c = '-'

/-- The value of a hexadecimal digit. -/
def hexDigit? (c : Char) : Option Nat :=
  if '0' ≤ c ∧ c ≤ '9' then some (c.toNat - '0'.toNat)
  else if 'a' ≤ c ∧ c ≤ 'f' then some (c.toNat - 'a'.toNat + 10)
  else if 'A' ≤ c ∧ c ≤ 'F' then some (c.toNat - 'A'.toNat + 10)
  else none

/-- The character with a hexadecimal number. -/
def numbered? (digits : List Char) : Option Char := do
  let n := (← digits.mapM hexDigit?).foldl (fun n d => n * 16 + d) 0
  if n.isValidChar then some (Char.ofNat n) else none

/-- The character that a backslash with a letter stands for. -/
def lettered? : Char → Option Char
  | 'b' => some '\x08'
  | 't' => some '\t'
  | 'n' => some '\n'
  | 'f' => some '\x0c'
  | 'r' => some '\x0d'
  | '"' => some '"'
  | '\\' => some '\\'
  | _ => none

/-! ## Texts

Each reader gets what stands behind the opening quotes, and gives the text and what stands behind
the closing ones. -/

/-- Puts a character in front of a text that has been read. -/
def before (c : Char) (read : List Char × List Char) : List Char × List Char :=
  (c :: read.1, read.2)

/-- A text between double quotes. -/
def basic : List Char → Option (List Char × List Char)
  | '"' :: rest => some ([], rest)
  | '\\' :: 'u' :: a :: b :: c :: d :: rest => do
    let ch ← numbered? [a, b, c, d]
    return before ch (← basic rest)
  | '\\' :: 'U' :: a :: b :: c :: d :: e :: f :: g :: h :: rest => do
    let ch ← numbered? [a, b, c, d, e, f, g, h]
    return before ch (← basic rest)
  | '\\' :: letter :: rest => do
    let ch ← lettered? letter
    return before ch (← basic rest)
  | c :: rest => if isBasic c then (basic rest).map (before c) else none
  | [] => none

/-- A text between single quotes. -/
def literal : List Char → Option (List Char × List Char)
  | '\'' :: rest => some ([], rest)
  | c :: rest => if isLiteral c then (literal rest).map (before c) else none
  | [] => none

/-- Where a text of several lines stands with respect to a backslash at the end of a line. -/
inductive Joint where
  | apart
  /-- Behind the backslash, in front of the line break. -/
  | opened
  /-- Behind the line break, in front of the next character that is not blank. -/
  | crossed
deriving DecidableEq, Repr

/-- A text between three double quotes. One or two more quotes may stand in front of the closing
ones. -/
def longBasic : Joint → List Char → Option (List Char × List Char)
  | j, '\x0d' :: '\n' :: rest =>
    if j = .apart then (longBasic .apart rest).map (before '\n') else longBasic .crossed rest
  | j, '\n' :: rest =>
    if j = .apart then (longBasic .apart rest).map (before '\n') else longBasic .crossed rest
  | .opened, c :: rest => if isSpace c then longBasic .opened rest else none
  | _, '"' :: '"' :: '"' :: '"' :: '"' :: rest => some (['"', '"'], rest)
  | _, '"' :: '"' :: '"' :: '"' :: rest => some (['"'], rest)
  | _, '"' :: '"' :: '"' :: rest => some ([], rest)
  | _, '\\' :: 'u' :: a :: b :: c :: d :: rest => do
    let ch ← numbered? [a, b, c, d]
    return before ch (← longBasic .apart rest)
  | _, '\\' :: 'U' :: a :: b :: c :: d :: e :: f :: g :: h :: rest => do
    let ch ← numbered? [a, b, c, d, e, f, g, h]
    return before ch (← longBasic .apart rest)
  | _, '\\' :: c :: rest =>
    match lettered? c with
    | some ch => (longBasic .apart rest).map (before ch)
    | none =>
      if isSpace c then longBasic .opened rest
      else if c = '\n' then longBasic .crossed rest
      else match c, rest with
        | '\x0d', '\n' :: rest => longBasic .crossed rest
        | _, _ => none
  | j, c :: rest =>
    if j = .crossed ∧ isSpace c then longBasic .crossed rest
    else if c = '"' ∨ isBasic c then (longBasic .apart rest).map (before c)
    else none
  | _, [] => none

/-- A text between three single quotes. One or two more quotes may stand in front of the closing
ones. -/
def longLiteral : List Char → Option (List Char × List Char)
  | '\x0d' :: '\n' :: rest => (longLiteral rest).map (before '\n')
  | '\n' :: rest => (longLiteral rest).map (before '\n')
  | '\'' :: '\'' :: '\'' :: '\'' :: '\'' :: rest => some (['\'', '\''], rest)
  | '\'' :: '\'' :: '\'' :: '\'' :: rest => some (['\''], rest)
  | '\'' :: '\'' :: '\'' :: rest => some ([], rest)
  | c :: rest => if c = '\'' ∨ isLiteral c then (longLiteral rest).map (before c) else none
  | [] => none

/-- Leaves out a line break. -/
def dropBreak : List Char → List Char
  | '\x0d' :: '\n' :: rest => rest
  | '\n' :: rest => rest
  | rest => rest

/-! ## Lines -/

/-- A value, and what stands behind it. -/
def scalar? : List Char → Option (Scalar × List Char)
  | '"' :: '"' :: '"' :: rest =>
    (longBasic .apart (dropBreak rest)).map fun (t, rest) => (.text (String.ofList t), rest)
  | '"' :: rest => (basic rest).map fun (t, rest) => (.text (String.ofList t), rest)
  | '\'' :: '\'' :: '\'' :: rest =>
    (longLiteral (dropBreak rest)).map fun (t, rest) => (.text (String.ofList t), rest)
  | '\'' :: rest => (literal rest).map fun (t, rest) => (.text (String.ofList t), rest)
  | 't' :: 'r' :: 'u' :: 'e' :: rest => some (.switch true, rest)
  | 'f' :: 'a' :: 'l' :: 's' :: 'e' :: rest => some (.switch false, rest)
  | _ => none

/-- A key, and what stands behind it. -/
def key? : List Char → Option (String × List Char)
  | '"' :: rest => (basic rest).map fun (t, rest) => (String.ofList t, rest)
  | '\'' :: rest => (literal rest).map fun (t, rest) => (String.ofList t, rest)
  | cs =>
    let key := cs.takeWhile isBare
    if key.isEmpty then none else some (String.ofList key, cs.dropWhile isBare)

/-- What stands behind the end of a line that has nothing more but a comment. -/
def endLine? (cs : List Char) : Option (List Char) :=
  let rest := match cs.dropWhile isSpace with
    | '#' :: comment => comment.dropWhile isPlain
    | rest => rest
  match rest with
  | [] => some []
  | '\n' :: rest => some rest
  | '\x0d' :: '\n' :: rest => some rest
  | _ => none

/-- A line with a key and its value, and what stands behind it. -/
def entry? (cs : List Char) : Option ((String × Scalar) × List Char) := do
  let (key, rest) ← key? cs
  match rest.dropWhile isSpace with
  | '=' :: rest => do
    let (value, rest) ← scalar? (rest.dropWhile isSpace)
    return ((key, value), ← endLine? rest)
  | _ => none

/-- The keys and values of at most as many lines as the fuel. -/
def lines : Nat → List Char → Option (List (String × Scalar))
  | 0, cs => if cs.isEmpty then some [] else none
  | fuel + 1, cs =>
    if cs.isEmpty then some []
    else
      let cs := cs.dropWhile isSpace
      match endLine? cs with
      | some rest => lines fuel rest
      | none => do
        let (entry, rest) ← entry? cs
        return entry :: (← lines fuel rest)

/-- The keys and values of a document in their order. -/
def entries? (document : String) : Option (List (String × Scalar)) :=
  let cs := match document.toList with
    | '\ufeff' :: rest => rest
    | cs => cs
  lines cs.length cs

end Retrofit.Toml

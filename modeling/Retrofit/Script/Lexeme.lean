import Retrofit.Text.Blank
import Retrofit.Text.Pieces

/-!
# Lexemes

The pieces that scripts are spelled with: white space and comments, words, numerals, strings,
regular expressions and symbols. A function that ends in `?` is given the text from the lexeme on
and returns the text behind it, or nothing if no such lexeme stands there.

A symbol is the longest one that fits (`symbol?`), with one exception: the question mark of a
condition stands alone in front of a decimal such as `.5`.
-/

namespace Retrofit.Script

/-! ## White space and comments -/

/-- White space between lexemes. -/
def isSpace (c : Char) : Bool :=
  Text.isBlank c || c.toNat == 0xFEFF || c.toNat == 0x2060 || c.toNat == 0x200B

/-- The characters that end a line, the carriage return aside. -/
def isLineEnd (c : Char) : Bool :=
  c == '\n' || c.toNat == 0x2028 || c.toNat == 0x2029

/-- The number of characters up to the end of a block comment, from behind its beginning on. -/
def blockCommentLength? : List Char → Option Nat
  | '*' :: '/' :: _ => some 2
  | _ :: cs => (blockCommentLength? cs).map (· + 1)
  | [] => none

/-- The length of the comment in front of a text. `markup` admits the comments that open with
`<!--` or `-->`. -/
def commentLength? (markup : Bool) : List Char → Option Nat
  | '/' :: '/' :: cs => some ((cs.takeWhile fun c => !isLineEnd c && c != '\r').length + 2)
  | '/' :: '*' :: cs => (blockCommentLength? cs).map (· + 2)
  | '<' :: '!' :: '-' :: '-' :: cs =>
    if markup then some ((cs.takeWhile fun c => !isLineEnd c && c != '\x00').length + 4) else none
  | '-' :: '-' :: '>' :: cs =>
    if markup then some ((cs.takeWhile fun c => !isLineEnd c && c != '\x00').length + 3) else none
  | _ => none

/-- The text behind white space and comments, after a number of characters that belong to a
comment. -/
def skipGap (markup : Bool) : Nat → List Char → List Char
  | _, [] => []
  | n + 1, _ :: cs => skipGap markup n cs
  | 0, c :: cs =>
    if isSpace c then skipGap markup 0 cs
    else match commentLength? markup (c :: cs) with
      | some n => skipGap markup (n - 1) cs
      | none => c :: cs

/-! ## Words -/

/-- The characters that words consist of. -/
def isWordPart (c : Char) : Bool :=
  32 ≤ c.toNat && !isSpace c && !":;`\"'@#.,|^&<=>+-*/\\%?!~()[]\x7b\x7d".toList.contains c

def isHexDigit (c : Char) : Bool :=
  c.isDigit || ('a' ≤ c && c ≤ 'f') || ('A' ≤ c && c ≤ 'F')

/-- The length of the number of a character: four hexadecimal digits, or any in braces. -/
def characterNumberLength? : List Char → Option Nat
  | '\x7b' :: cs =>
    let digits := cs.takeWhile isHexDigit
    if !digits.isEmpty && (cs.drop digits.length).head? == some '\x7d' then some (digits.length + 2)
    else none
  | a :: b :: c :: d :: _ => if [a, b, c, d].all isHexDigit then some 4 else none
  | _ => none

/-- The word in front of a text and the text behind it, after a number of characters that belong
to an escape. -/
def spanWord : Nat → List Char → List Char × List Char
  | _, [] => ([], [])
  | n + 1, c :: cs => let (word, rest) := spanWord n cs; (c :: word, rest)
  | 0, c :: cs =>
    if isWordPart c then let (word, rest) := spanWord 0 cs; (c :: word, rest)
    else match c, cs with
      | '\\', 'u' :: digits =>
        match characterNumberLength? digits with
        | some n => let (word, rest) := spanWord (n + 1) cs; (c :: word, rest)
        | none => ([], c :: cs)
      | _, _ => ([], c :: cs)

/-- The word in front of a text and the text behind it. -/
def word? (cs : List Char) : Option (String × List Char) :=
  match cs with
  | c :: _ =>
    if c.isDigit then none
    else match spanWord 0 cs with
      | ([], _) => none
      | (word, rest) => some (String.ofList word, rest)
  | [] => none

def privateName? : List Char → Option (List Char)
  | '#' :: cs => (word? cs).map Prod.snd
  | _ => none

/-! ## Numerals -/

/-- Digits with single underscores between them. -/
def digits? (digit : Char → Bool) : List Char → Option (List Char)
  | c :: cs =>
    if digit c then
      some <| (digits? digit cs).getD <|
        match cs with
        | '_' :: cs' => (digits? digit cs').getD cs
        | _ => cs
    else none
  | [] => none

/-- The text behind an exponent, or the text itself if there is none. -/
def skipExponent (cs : List Char) : List Char :=
  match cs with
  | e :: cs' =>
    if e == 'e' || e == 'E' then
      let signed := match cs' with
        | '+' :: digits => digits
        | '-' :: digits => digits
        | _ => cs'
      (digits? Char.isDigit signed).getD cs
    else cs
  | [] => cs

/-- The text behind the mark of a big integer, or the text itself. -/
def skipBigMark : List Char → List Char
  | 'n' :: cs => cs
  | cs => cs

/-- The text behind the fraction whose point has been read. -/
def skipFraction (cs : List Char) : List Char :=
  skipExponent ((digits? Char.isDigit cs).getD cs)

/-- Whether digits may be followed by a fraction or an exponent: a zero stands alone or in front
of another digit. -/
def canContinue : List Char → Bool
  | '0' :: c :: _ => c.isDigit && c != '0' || !(c.isDigit || c == '_')
  | _ => true

def decimal? : List Char → Option (List Char)
  | '.' :: cs => (digits? Char.isDigit cs).map skipExponent
  | cs => do
    let rest ← digits? Char.isDigit cs
    match rest with
    | '.' :: fraction => if canContinue cs then some (skipFraction fraction) else some rest
    | 'n' :: rest => some rest
    | _ => if canContinue cs then some (skipExponent rest) else some rest

def numeral? (cs : List Char) : Option (List Char) :=
  let based (digit : Char → Bool) (digits : List Char) : Option (List Char) :=
    ((digits? digit digits).map skipBigMark).or (decimal? cs)
  match cs with
  | '0' :: 'x' :: ds | '0' :: 'X' :: ds => based isHexDigit ds
  | '0' :: 'b' :: ds | '0' :: 'B' :: ds => based (fun c => c == '0' || c == '1') ds
  | '0' :: 'o' :: ds | '0' :: 'O' :: ds => based (fun c => '0' ≤ c && c ≤ '7') ds
  | _ => decimal? cs

/-! ## Strings and regular expressions -/

/-- The length of an escape, from behind its backslash on. -/
def escapeLength? : List Char → Option Nat
  | [] => none
  | c :: cs =>
    if (c == '\r' || c == '?') && (cs.head?.map isLineEnd).getD false then some 2
    else if c == 'x' then
      match cs with
      | a :: b :: _ => if isHexDigit a && isHexDigit b then some 3 else none
      | _ => none
    else if c == 'u' then (characterNumberLength? cs).map (· + 1)
    else if '0' ≤ c && c ≤ '7' then
      some (((c :: cs).take 3).takeWhile fun d => '0' ≤ d && d ≤ '7').length
    else some 1

/-- The text behind the quote that closes a string, after a number of characters that belong to an
escape. A line break ends what a string may hold, only the closing quote may follow. -/
def closeString? (quote : Char) : Nat → List Char → Option (List Char)
  | _, [] => none
  | n + 1, _ :: cs => closeString? quote n cs
  | 0, c :: cs =>
    if c == quote then some cs
    else if c == '\\' then (escapeLength? cs).bind fun n => closeString? quote n cs
    else if c == '\n' || c == '\r' then
      match skipGap false 0 cs with
      | d :: rest => if d == quote then some rest else none
      | [] => none
    else closeString? quote 0 cs

def string? : List Char → Option (List Char)
  | '"' :: cs => closeString? '"' 0 cs
  | '\'' :: cs => closeString? '\'' 0 cs
  | _ => none

/-- The text behind the slash that closes a regular expression. `inClass` holds between square
brackets. -/
def closePattern? (inClass : Bool) : List Char → Option (List Char)
  | [] => none
  | '\\' :: c :: cs => if c == '\n' then none else closePattern? inClass cs
  | c :: cs =>
    if c == '\n' || c == '\\' then none
    else if inClass then closePattern? (c != ']') cs
    else if c == '/' then some cs
    else closePattern? (c == '[') cs

/-- A regular expression with its flags. -/
def pattern? : List Char → Option (List Char)
  | '/' :: c :: cs =>
    if c == '/' then none
    else (closePattern? false (c :: cs)).map (·.dropWhile fun f => 'a' ≤ f && f ≤ 'z')
  | _ => none

/-! ## Symbols -/

/-- The symbols that can follow an operand, longer ones in front of their beginnings. -/
def symbols : List String :=
  [">>>=", "===", "!==", ">>>", "**=", "<<=", ">>=", "&&=", "||=", "??=",
    "=>", "==", "!=", "<=", ">=", "&&", "||", "??", "?.", "++", "--", "<<", ">>", "**",
    "+=", "-=", "*=", "/=", "%=", "&=", "|=", "^=",
    ".", "[", "(", "`", "?", ",", "=", "<", ">", "+", "-", "*", "/", "%", "&", "|", "^"]

/-- The symbols between two operands. -/
def infixSymbols : List String :=
  ["===", "!==", ">>>", "==", "!=", "<=", ">=", "&&", "||", "??", "<<", ">>", "**",
    "<", ">", "+", "-", "*", "/", "%", "&", "|", "^"]

/-- The symbols that assign the result of an operation. -/
def compoundSymbols : List String :=
  [">>>=", "**=", "<<=", ">>=", "&&=", "||=", "??=", "+=", "-=", "*=", "/=", "%=", "&=", "|=",
    "^="]

def symbol? : List Char → Option String
  | '?' :: '.' :: c :: cs =>
    if c.isDigit then some "?"
    else symbols.find? fun s => (Text.strip? s.toList ('?' :: '.' :: c :: cs)).isSome
  | cs => symbols.find? fun s => (Text.strip? s.toList cs).isSome

end Retrofit.Script

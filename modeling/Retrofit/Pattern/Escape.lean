import Retrofit.Pattern.NamedClass

/-!
# Escapes in patterns

**Flags.** Flags change how the text of a pattern is read. With `spaced`, white space and comments
between the parts of a pattern mean nothing. Without `unicode`, only ASCII characters may match, so
whatever could match another one is refused.

**Escapes.** A backslash makes a punctuation character stand for itself. In front of some letters it
names a control character, a character by number, a class or an assertion; in front of any other
letter or digit it is a mistake.
-/

namespace Retrofit.Pattern

/-! ## Flags -/

/-- How the text of a pattern is read. -/
structure Flags where
  anyCase : Bool := false
  multiline : Bool := false
  dotAll : Bool := false
  swapGreed : Bool := false
  unicode : Bool := true
  wideLines : Bool := false
  spaced : Bool := false

namespace Flags

/-- The class of the characters that differ from a member in case only, if case does not matter. -/
def fold (f : Flags) (chars : CharClass) : CharClass :=
  if !f.anyCase then chars else if f.unicode then .anyCase chars else .anyAsciiCase chars

/-- The class or its complement, after folding. -/
def foldAndNegate? (f : Flags) (negated : Bool) (chars : CharClass) : Option CharClass :=
  if !negated then some (f.fold chars)
  else if f.unicode then some (.complement (f.fold chars))
  else none

/-- The characters of words. -/
def word (f : Flags) : CharClass :=
  if f.unicode then .word else .asciiWord

/-- Whether a character may stand for itself. -/
def admits (f : Flags) (c : Char) : Bool :=
  f.unicode || c.toNat < 128

/-- The text behind white space and comments. -/
def skipFrom : Bool → List Char → List Char
  | _, [] => []
  | true, c :: cs => skipFrom (c != '\n') cs
  | false, c :: cs =>
    if Text.isBlank c then skipFrom false cs
    else if c = '#' then skipFrom true cs
    else c :: cs

/-- The text behind white space and comments, if they mean nothing. -/
def skip (f : Flags) (cs : List Char) : List Char :=
  if f.spaced then skipFrom false cs else cs

end Flags

/-! ## Numbers of characters -/

/-- The value of a hexadecimal digit. -/
def hexValue? (c : Char) : Option Nat :=
  if c.isDigit then some (c.toNat - '0'.toNat)
  else if 'a' ≤ c ∧ c ≤ 'f' then some (c.toNat - 'a'.toNat + 10)
  else if 'A' ≤ c ∧ c ≤ 'F' then some (c.toNat - 'A'.toNat + 10)
  else none

/-- The character with a number. -/
def charOfNat? (n : Nat) : Option Char :=
  if n.isValidChar then some (Char.ofNat n) else none

/-- A number of exactly so many hexadecimal digits, and the text behind it. -/
def hexDigits? (f : Flags) : Nat → Nat → List Char → Option (Nat × List Char)
  | 0, n, cs => some (n, cs)
  | count + 1, n, cs =>
    match cs with
    | c :: cs => (hexValue? c).bind fun d => hexDigits? f count (n * 16 + d) (f.skip cs)
    | [] => none

/-- The text between an opening brace, which has been read, and the closing one, without what means
nothing, and the text behind it. -/
def braced? (f : Flags) : Nat → List Char → Option (List Char × List Char)
  | 0, _ => none
  | fuel + 1, cs =>
    match f.skip cs with
    | '\x7d' :: cs => some ([], cs)
    | c :: cs => (braced? f fuel cs).map fun (inside, rest) => (c :: inside, rest)
    | [] => none

/-- The character that `x`, `u` or `U` and a number stand for, from behind the letter on. -/
def numbered? (f : Flags) (digits : Nat) (cs : List Char) : Option (Char × List Char) :=
  match f.skip cs with
  | '\x7b' :: cs => do
    let (inside, rest) ← braced? f (cs.length + 1) cs
    let values ← inside.mapM hexValue?
    if values.isEmpty then none
    else
      let c ← charOfNat? (values.foldl (fun n d => n * 16 + d) 0)
      return (c, rest)
  | cs => do
    let (n, rest) ← hexDigits? f digits 0 cs
    let c ← charOfNat? n
    return (c, rest)

/-! ## Classes -/

/-- A class of the letters `d`, `s` and `w`. -/
def letterClass? (f : Flags) (c : Char) : Option CharClass :=
  let chars :=
    if c.toLower = 'd' then if f.unicode then .digit else CharClass.range '0' '9'
    else if c.toLower = 's' then
      if f.unicode then .space else .union (.range '\t' '\r') (.single ' ')
    else f.word
  if !c.isUpper then some chars else if f.unicode then some (.complement chars) else none

/-- The text in front of and behind the first occurrence of a separator. -/
def cutAt? (separator : List Char) : List Char → Option (List Char × List Char)
  | [] => none
  | c :: cs =>
    match Text.strip? separator (c :: cs) with
    | some rest => some ([], rest)
    | none => (cutAt? separator cs).map fun (front, rest) => (c :: front, rest)

/-- The class that the text between the braces of a property describes, and whether it is
negated. -/
def describedClass? (inside : List Char) : Option (CharClass × Bool) :=
  match cutAt? ['!', '='] inside with
  | some (p, v) => (CharClass.valued? (String.ofList p) (String.ofList v)).map (·, true)
  | none =>
    match (cutAt? [':'] inside).or (cutAt? ['='] inside) with
    | some (p, v) => (CharClass.valued? (String.ofList p) (String.ofList v)).map (·, false)
    | none => (CharClass.named? (String.ofList inside)).map (·, false)

/-- The class of a property, from behind the letter `p` or `P` on. -/
def property? (f : Flags) (negated : Bool) (cs : List Char) : Option (CharClass × List Char) := do
  let (inside, rest) ← match f.skip cs with
    | '\x7b' :: cs => braced? f (cs.length + 1) cs
    | '\\' :: _ => none
    | c :: cs => some ([c], cs)
    | [] => none
  let (chars, inverted) ← describedClass? inside
  if !f.unicode then none
  else
    let chars ← f.foldAndNegate? (negated != inverted) chars
    return (chars, rest)

/-! ## Escapes -/

/-- What an escape stands for. -/
inductive Escaped where
  | char (c : Char)
  | chars (chars : CharClass)
  | assertion (assertion : Assertion)

/-- The control characters that letters stand for. -/
def control? (c : Char) : Option Char :=
  match c with
  | 'a' => some '\x07'
  | 'f' => some '\x0c'
  | 't' => some '\t'
  | 'n' => some '\n'
  | 'r' => some '\r'
  | 'v' => some '\x0b'
  | _ => none

/-- Whether a character may stand behind a backslash for itself. -/
def isEscapable (c : Char) : Bool :=
  c.toNat < 128 && !c.isAlphanum && c != '<' && c != '>'

/-- The assertion on words that is named in braces, with the text behind it. The outer option is
none at a mistake, the inner one where the brace belongs to a repetition. -/
def namedBoundary? (f : Flags) (cs : List Char) : Option (Option (Assertion × List Char)) :=
  match cs with
  | '\x7b' :: cs =>
    match f.skip cs with
    | [] => none
    | c :: cs =>
      if !(c.isAlpha || c == '-') then some none
      else do
        let (inside, rest) ← braced? f (cs.length + 2) (c :: cs)
        let assertion ← match String.ofList inside with
          | "start" => some (Assertion.wordStart f.word)
          | "end" => some (.wordEnd f.word)
          | "start-half" => some (.wordStartHalf f.word)
          | "end-half" => some (.wordEndHalf f.word)
          | _ => none
        return some (assertion, rest)
  | _ => some none

/-- What stands behind a backslash, and the text behind it. -/
def escape? (f : Flags) (cs : List Char) : Option (Escaped × List Char) := do
  match cs with
  | [] => none
  | c :: cs =>
    let literal (found : Char × List Char) : Option (Escaped × List Char) :=
      if f.admits found.1 then some (.char found.1, found.2) else none
    match c with
    | 'x' => literal (← numbered? f 2 cs)
    | 'u' => literal (← numbered? f 4 cs)
    | 'U' => literal (← numbered? f 8 cs)
    | 'p' | 'P' => (property? f (c == 'P') cs).map fun (chars, rest) => (.chars chars, rest)
    | 'd' | 's' | 'w' | 'D' | 'S' | 'W' => (letterClass? f c).map fun chars => (.chars chars, cs)
    | 'A' => some (.assertion .textStart, cs)
    | 'z' => some (.assertion .textEnd, cs)
    | 'b' =>
      match ← namedBoundary? f cs with
      | some (assertion, rest) => some (.assertion assertion, rest)
      | none => some (.assertion (.boundary f.word), cs)
    | 'B' => some (.assertion (.noBoundary f.word), cs)
    | '<' => some (.assertion (.wordStart f.word), cs)
    | '>' => some (.assertion (.wordEnd f.word), cs)
    | _ =>
      match control? c with
      | some d => some (.char d, cs)
      | none => if isEscapable c then some (.char c, cs) else none

end Retrofit.Pattern

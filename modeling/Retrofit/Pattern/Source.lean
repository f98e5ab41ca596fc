import Retrofit.Pattern.Bracket
import Retrofit.Pattern.Match

/-!
# Patterns from source text

**Reading.** A text is read from left to right. Each step shifts one part onto the alternative that
is being read, changes the last part, or opens or closes a group; the groups around the place are
kept on a stack. Flags last to the end of the group in which they were set.

**Mistakes.** `ofText?` returns nothing for what is no pattern, and also for what nests too deeply
or grows too large: at most 250 levels, and programs of limited size. The same goes for patterns
with a property of Unicode that is not among those of `CharClass.named?`.
-/

namespace Retrofit.Pattern

structure Part where
  pattern : Pattern
  /-- How deeply constructs are nested in it. -/
  height : Nat
  /-- Flags alone cannot be repeated. -/
  repeatable : Bool

/-- A group around the place that is being read. -/
structure OpenGroup where
  /-- The number of the group, if it is captured. -/
  number : Option Nat
  /-- The flags that return behind the group. -/
  flags : Flags
  /-- The alternatives in front of the group, the last in front. -/
  branches : List Part
  /-- The parts in front of the group, the last in front. -/
  parts : List Part

structure ReadState where
  rest : List Char
  flags : Flags
  groups : Nat
  names : List (String × Nat)
  /-- The finished alternatives of the innermost group, the last in front. -/
  branches : List Part
  /-- The parts of the alternative that is being read, the last in front. -/
  parts : List Part
  outer : List OpenGroup

/-! ## Parts -/

/-- A part without nested constructs. -/
def Part.leaf (pattern : Pattern) : Part :=
  ⟨pattern, 0, true⟩

/-- The parts of an alternative, the last in front, as one part. -/
def Part.sequence (parts : List Part) : Part :=
  match parts with
  | [] => .leaf .empty
  | [part] => part
  | last :: front => front.foldl
      (fun rest part => ⟨.seq part.pattern rest.pattern, max rest.height (part.height + 1), true⟩)
      { last with height := last.height + 1 }

/-- Alternatives, the last in front, as one part. -/
def Part.alternatives (branches : List Part) : Part :=
  match branches with
  | [] => .leaf .empty
  | [part] => part
  | last :: front => front.foldl
      (fun rest part =>
        ⟨.either part.pattern rest.pattern, max rest.height (part.height + 1), true⟩)
      { last with height := last.height + 1 }

namespace ReadState

/-- Shifts a part and goes on in front of a place. -/
def shift (s : ReadState) (part : Part) (rest : List Char) : ReadState :=
  { s with parts := part :: s.parts, rest }

/-- All that has been read in the innermost group. -/
def content (s : ReadState) : Part :=
  .alternatives (.sequence s.parts :: s.branches)

/-! ## Repetitions -/

/-- Repeats the last part. -/
def rounds? (s : ReadState) (least : Nat) (most : Option Nat) (rest : List Char) :
    Option ReadState :=
  match s.parts with
  | [] => none
  | part :: front =>
    if !part.repeatable then none
    else
      let (lazy, rest) := match rest with
        | '?' :: rest => (true, rest)
        | rest => (false, rest)
      let pattern :=
        if most = some 0 then .empty
        else .rounds part.pattern least most (lazy == s.flags.swapGreed)
      some { s with parts := ⟨pattern, part.height + 1, true⟩ :: front, rest }

/-- The digits in front of a text with what means nothing between them, and the text behind. -/
def digits (f : Flags) : Nat → List Char → List Char × List Char
  | 0, cs => ([], cs)
  | fuel + 1, cs =>
    match cs with
    | c :: rest =>
      if c.isDigit then
        let (ds, rest) := digits f fuel (f.skip rest)
        (c :: ds, rest)
      else ([], cs)
    | [] => ([], [])

/-- A number below 2 ^ 32 with white space around it, and the text behind it. -/
def count? (f : Flags) (cs : List Char) : Option (Nat × List Char) :=
  let (ds, rest) := digits f (cs.length + 1) (cs.dropWhile Text.isBlank)
  let n := ds.foldl (fun n d => n * 10 + (d.toNat - '0'.toNat)) 0
  if ds.isEmpty || 4294967295 < n then none
  else some (n, f.skip (rest.dropWhile Text.isBlank))

/-- Repeats the last part as often as the numbers in braces say, from behind the opening brace
on. -/
def counted? (s : ReadState) (cs : List Char) : Option ReadState := do
  let (least, rest) ← count? s.flags (s.flags.skip cs)
  let (most, rest) ← match rest with
    | ',' :: rest =>
      match s.flags.skip rest with
      | '\x7d' :: rest => some (none, '\x7d' :: rest)
      | rest => (count? s.flags rest).map fun (most, rest) => (some most, rest)
    | rest => some (some least, rest)
  match rest with
  | '\x7d' :: rest =>
    if most.any (· < least) then none else s.rounds? least most (s.flags.skip rest)
  | _ => none

/-! ## Groups -/

def openGroup (s : ReadState) (number : Option Nat) (inside : Flags) (rest : List Char) :
    ReadState :=
  { s with
    rest
    flags := inside
    branches := []
    parts := []
    outer := ⟨number, s.flags, s.branches, s.parts⟩ :: s.outer }

/-- Opens a captured group. -/
def openCapture (s : ReadState) (rest : List Char) : ReadState :=
  { s.openGroup (some (s.groups + 1)) s.flags rest with groups := s.groups + 1 }

/-- Whether a character may stand in the name of a group. -/
def isNameChar (first : Bool) (c : Char) : Bool :=
  c == '_' || Unicode.isAlphabetic c
    || (!first && (".[]".toList.contains c || Unicode.isNumeric c))

/-- Opens a captured group with a name, from the name on. -/
def openNamed? (s : ReadState) (cs : List Char) : Option ReadState :=
  let name := cs.takeWhile (· != '>')
  match name, cs.dropWhile (· != '>') with
  | c :: more, _ :: rest =>
    let text := String.ofList name
    if isNameChar true c && more.all (isNameChar false) && !s.names.any (·.1 == text) then
      some { s.openCapture rest with names := s.names ++ [(text, s.groups + 1)] }
    else none
  | _, _ => none

/-- The flags after a flag letter has been read. -/
def setFlag? (value : Bool) (f : Flags) (c : Char) : Option Flags :=
  match c with
  | 'i' => some { f with anyCase := value }
  | 'm' => some { f with multiline := value }
  | 's' => some { f with dotAll := value }
  | 'U' => some { f with swapGreed := value }
  | 'u' => some { f with unicode := value }
  | 'R' => some { f with wideLines := value }
  | 'x' => some { f with spaced := value }
  | _ => none

/-- The flags in front of a colon or closing parenthesis, and the text from there on. A letter may
stand once, and a hyphen must have letters behind it. -/
def flags? (value : Bool) (seen : List Char) (f : Flags) :
    List Char → Option (Flags × List Char)
  | [] => none
  | c :: cs =>
    if c == ':' || c == ')' then
      if seen.head? == some '-' then none else some (f, c :: cs)
    else if seen.contains c then none
    else if c == '-' then flags? false (c :: seen) f cs
    else do flags? value (c :: seen) (← setFlag? value f c) cs

/-- Opens a group or sets flags, from behind the opening parenthesis on. -/
def open? (s : ReadState) (cs : List Char) : Option ReadState :=
  match s.flags.skip cs with
  | '?' :: '=' :: _ | '?' :: '!' :: _ | '?' :: '<' :: '=' :: _ | '?' :: '<' :: '!' :: _ => none
  | '?' :: 'P' :: '<' :: cs | '?' :: '<' :: cs => s.openNamed? cs
  | '?' :: ')' :: _ => none
  | '?' :: cs => do
    let (inside, rest) ← flags? true [] s.flags cs
    match rest with
    | ':' :: rest => some (s.openGroup none inside rest)
    | _ :: rest => some { s.shift ⟨.empty, 0, false⟩ rest with flags := inside }
    | [] => none
  | cs => some (s.openCapture cs)

/-- Closes the innermost group. -/
def close? (s : ReadState) (rest : List Char) : Option ReadState :=
  match s.outer with
  | [] => none
  | group :: outer =>
    let content := s.content
    let pattern := match group.number with
      | some n => .capture n content.pattern
      | none => content.pattern
    some { s with
      rest
      flags := group.flags
      branches := group.branches
      parts := ⟨pattern, content.height + 1, true⟩ :: group.parts
      outer }

/-! ## Single parts -/

/-- Shifts the characters that an escape, a point or a character by itself can match. -/
def shiftChars (s : ReadState) (chars : CharClass) (rest : List Char) : ReadState :=
  s.shift (.leaf (.char chars)) rest

/-- The characters that a point matches. -/
def dot? (f : Flags) : Option CharClass :=
  if !f.unicode then none
  else if f.dotAll then some .all
  else if f.wideLines then some (.complement (.union (.single '\r') (.single '\n')))
  else some (.complement (.single '\n'))

/-- Reads one part, or the sign that changes or divides the parts; `c` is in front of `cs`. -/
def step? (s : ReadState) (c : Char) (cs : List Char) : Option ReadState :=
  let f := s.flags
  match c with
  | '(' => s.open? cs
  | ')' => s.close? cs
  | '|' => some { s with branches := .sequence s.parts :: s.branches, parts := [], rest := cs }
  | '*' => s.rounds? 0 none cs
  | '+' => s.rounds? 1 none cs
  | '?' => s.rounds? 0 (some 1) cs
  | '\x7b' => s.counted? cs
  | '[' => do
    let (chars, height, rest) ← bracket? f (cs.length + 1) cs
    return s.shift ⟨.char chars, height, true⟩ rest
  | '.' => (dot? f).map (s.shiftChars · cs)
  | '^' =>
    let assertion : Assertion :=
      if !f.multiline then .textStart else if f.wideLines then .wideLineStart else .lineStart
    some (s.shift (.leaf (.assert assertion)) cs)
  | '$' =>
    let assertion : Assertion :=
      if !f.multiline then .textEnd else if f.wideLines then .wideLineEnd else .lineEnd
    some (s.shift (.leaf (.assert assertion)) cs)
  | '\\' => do
    match ← escape? f cs with
    | (.char c, rest) => return s.shiftChars (f.fold (.single c)) rest
    | (.chars chars, rest) => return s.shiftChars chars rest
    | (.assertion assertion, rest) => return s.shift (.leaf (.assert assertion)) rest
  | _ => if f.admits c then some (s.shiftChars (f.fold (.single c)) cs) else none

end ReadState

/-- Reads all parts. -/
def readAll? : Nat → ReadState → Option ReadState
  | 0, _ => none
  | fuel + 1, s =>
    match s.flags.skip s.rest with
    | [] => if s.outer.isEmpty then some s else none
    | c :: cs => (s.step? c cs).bind (readAll? fuel)

/-- The number of levels to which a pattern may nest. -/
def maxHeight : Nat := 250

/-- The number of instructions that a pattern may take. -/
def maxWeight : Nat := 327680

/-- The pattern with a source, and the groups that have names. -/
def ofText? (source : String) : Option (Pattern × List (String × Nat)) := do
  let cs := source.toList
  let s ← readAll? (cs.length + 1) ⟨cs, {}, 0, [], [], [], []⟩
  let part := s.content
  if maxHeight < part.height || maxWeight < part.pattern.weight then none
  else some (part.pattern, s.names)

end Retrofit.Pattern

namespace Retrofit.Program

def ofText? (source : String) : Option Program :=
  (Pattern.ofText? source).map fun (pattern, names) => pattern.program names

end Retrofit.Program

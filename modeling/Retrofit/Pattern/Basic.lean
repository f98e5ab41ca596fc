import Retrofit.Text.Blank
import Retrofit.Unicode.Class
import Retrofit.Unicode.Folding

/-!
# Patterns

**Classes.** A `CharClass` is a set of characters, built from ranges, named sets and Boolean
operations. `anyCase` closes a class under simple case folding, for all of Unicode or for ASCII.

**Assertions.** An assertion holds or fails between two characters and consumes nothing; `holds`
decides it from the neighbours, none at the ends of the text.

**Patterns.** A pattern is a regular expression with captures. Alternatives are ordered and
repetitions prefer more or fewer rounds, so that a pattern has at most one preferred match at a
place.
-/

namespace Retrofit

/-! ## Classes of characters -/

/-- A set of characters. -/
inductive CharClass where
  | range (first last : Char)
  /-- The characters of words. -/
  | word
  | digit
  | space
  | alphabetic
  /-- The categories whose name has a beginning. -/
  | category (beginning : String)
  | listed (ranges : Unicode.Ranges)
  | nothing
  | complement (inner : CharClass)
  | union (left right : CharClass)
  | intersection (left right : CharClass)
  /-- The characters that differ from a member in case only. -/
  | anyCase (inner : CharClass)
  /-- The same for the letters of ASCII. -/
  | anyAsciiCase (inner : CharClass)
deriving Repr

namespace CharClass

/-- A letter of ASCII in the other case; any other character itself. -/
def otherCase (c : Char) : Char :=
  if c.isUpper then c.toLower else c.toUpper

def contains : CharClass → Char → Bool
  | range first last, c => first ≤ c && c ≤ last
  | word, c => Unicode.isWord c
  | digit, c => Unicode.isDigit c
  | space, c => Text.isBlank c
  | alphabetic, c => Unicode.isAlphabetic c
  | category beginning, c => Unicode.inCategory beginning c
  | listed ranges, c => ranges.contains c
  | nothing, _ => false
  | complement inner, c => !inner.contains c
  | union left right, c => left.contains c || right.contains c
  | intersection left right, c => left.contains c && right.contains c
  | anyCase inner, c => (Unicode.alike c).any inner.contains
  | anyAsciiCase inner, c => inner.contains c || inner.contains (otherCase c)

/-- About how many instructions it takes to recognise a character of the class by the bytes of its
encoding, the last byte first. The ranges of a table share little, so that each takes two; words and
digits are counted. -/
def weight : CharClass → Nat
  | range first last =>
    if last.toNat < 128 then 1 else if first = last then first.utf8Size else 7
  | word | alphabetic => 1459
  | digit => 141
  | space => 21
  | category beginning =>
    let sets := Unicode.categories.filter fun (name, _) => name.startsWith beginning
    2 * Unicode.Ranges.joinedCount (sets.map Prod.snd)
  | listed ranges => 2 * ranges.bounds.size
  | nothing => 0
  | complement inner => inner.weight + 30
  | union left right | intersection left right => left.weight + right.weight
  | anyCase inner | anyAsciiCase inner => 2 * inner.weight

def single (c : Char) : CharClass :=
  range c c

/-- The characters of the first class that are not in the second. -/
def difference (left right : CharClass) : CharClass :=
  intersection left (complement right)

/-- The characters of exactly one class. -/
def symmetricDifference (left right : CharClass) : CharClass :=
  union (difference left right) (difference right left)

def unionAll (classes : List CharClass) : CharClass :=
  classes.foldr union nothing

def all : CharClass :=
  complement nothing

/-- The characters of words in ASCII. -/
def asciiWord : CharClass :=
  unionAll [range 'a' 'z', range 'A' 'Z', range '0' '9', single '_']

end CharClass

/-! ## Assertions -/

/-- A condition on a place in a text. -/
inductive Assertion where
  | textStart
  | textEnd
  | lineStart
  | lineEnd
  /-- The start of a line where carriage returns break lines as well. -/
  | wideLineStart
  | wideLineEnd
  /-- A boundary of a word made of the characters in a class. -/
  | boundary (letters : CharClass)
  | noBoundary (letters : CharClass)
  | wordStart (letters : CharClass)
  | wordEnd (letters : CharClass)
  /-- No word character stands in front. -/
  | wordStartHalf (letters : CharClass)
  /-- No word character follows. -/
  | wordEndHalf (letters : CharClass)
deriving Repr

/-- Whether an assertion holds between two characters. -/
def Assertion.holds (before after : Option Char) : Assertion → Bool
  | textStart => before.isNone
  | textEnd => after.isNone
  | lineStart => before.isNone || before == some '\n'
  | lineEnd => after.isNone || after == some '\n'
  | wideLineStart =>
    before.isNone || before == some '\n' || (before == some '\r' && after != some '\n')
  | wideLineEnd =>
    after.isNone || after == some '\r' || (after == some '\n' && before != some '\r')
  | boundary letters => before.any letters.contains != after.any letters.contains
  | noBoundary letters => before.any letters.contains == after.any letters.contains
  | wordStart letters => !before.any letters.contains && after.any letters.contains
  | wordEnd letters => before.any letters.contains && !after.any letters.contains
  | wordStartHalf letters => !before.any letters.contains
  | wordEndHalf letters => !after.any letters.contains

/-! ## Patterns -/

/-- A regular expression with captures. -/
inductive Pattern where
  | empty
  | char (chars : CharClass)
  | assert (assertion : Assertion)
  | capture (group : Nat) (inner : Pattern)
  | seq (first second : Pattern)
  /-- The first alternative is preferred. -/
  | either (first second : Pattern)
  /-- At least `least` rounds and at most `most` if there is a limit; more rounds are preferred if
  it is greedy. -/
  | rounds (inner : Pattern) (least : Nat) (most : Option Nat) (greedy : Bool)
deriving Repr

namespace Pattern

/-- The least number of characters that a match has. -/
def minLength : Pattern → Nat
  | empty | assert _ => 0
  | char _ => 1
  | capture _ inner => inner.minLength
  | seq first second => first.minLength + second.minLength
  | either first second => min first.minLength second.minLength
  | rounds inner least _ _ => inner.minLength * least

/-- The greatest number of a captured group. -/
def groupCount : Pattern → Nat
  | empty | assert _ | char _ => 0
  | capture group inner => max group inner.groupCount
  | seq first second | either first second => max first.groupCount second.groupCount
  | rounds inner _ _ _ => inner.groupCount

/-- About how many instructions the pattern takes. -/
def weight : Pattern → Nat
  | empty => 0
  | assert _ => 1
  | char chars => chars.weight
  | capture _ inner => inner.weight + 2
  | seq first second => first.weight + second.weight
  | either first second => first.weight + second.weight + 1
  | rounds inner least most _ =>
    match most with
    | none => inner.weight * max 1 least + 2
    | some most => inner.weight * most + (most - least)

end Pattern

end Retrofit

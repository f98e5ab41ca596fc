import Retrofit.Text.Pieces

/-!
# Versions

**The type.** A semantic version: three numbers below 2^64, the identifiers of a pre-release, and
those of the build metadata. Pre-release identifiers are numbers or names; build identifiers keep
their spelling, because `01` and `1` are different builds.

**Order.** `Version.cmp` is the precedence of versions, refined to a total order: a release is
above its pre-releases, numbers count by value, and versions of equal precedence are told apart by
their build metadata.

**Text.** `ofText?` reads the strict form and `text` writes it.
-/

namespace Retrofit

inductive PreIdentifier where
  | number (value : Nat)
  | name (text : String)
deriving DecidableEq, Repr

/-- A semantic version. -/
structure Version where
  major : Nat
  minor : Nat
  patch : Nat
  pre : List PreIdentifier := []
  build : List String := []
deriving DecidableEq, Repr

namespace Version

open Text

/-- The version that stands for "no version applies". -/
def zero : Version := ⟨0, 0, 0, [], []⟩

/-! ## Order -/

/-- Texts in the order of their characters. -/
def cmpText (a b : String) : Ordering :=
  if a < b then .lt else if b < a then .gt else .eq

/-- Numbers are below names. -/
def cmpPre : PreIdentifier → PreIdentifier → Ordering
  | .number a, .number b => compare a b
  | .number _, .name _ => .lt
  | .name _, .number _ => .gt
  | .name a, .name b => cmpText a b

/-- Lists compare by their first difference; a beginning is below its continuations. -/
def cmpList {α : Type} (cmp : α → α → Ordering) : List α → List α → Ordering
  | [], [] => .eq
  | [], _ :: _ => .lt
  | _ :: _, [] => .gt
  | a :: as, b :: bs => (cmp a b).then (cmpList cmp as bs)

/-- A release is above its pre-releases. -/
def cmpPreRelease : List PreIdentifier → List PreIdentifier → Ordering
  | [], [] => .eq
  | [], _ :: _ => .gt
  | _ :: _, [] => .lt
  | as, bs => cmpList cmpPre as bs

/-- Whether a build identifier is a number. -/
def isNumeral (identifier : String) : Bool :=
  identifier.toList.all Char.isDigit

def digitsValue (digits : List Char) : Nat :=
  digits.foldl (fun n c => n * 10 + (c.toNat - '0'.toNat)) 0

/-- Build identifiers: numerals by value and then by their leading zeros, below all names. -/
def cmpBuild (a b : String) : Ordering :=
  match isNumeral a, isNumeral b with
  | false, true => .gt
  | true, false => .lt
  | false, false => cmpText a b
  | true, true =>
    (compare (digitsValue a.toList) (digitsValue b.toList)).then
      (compare a.toList.length b.toList.length)

/-- The order of versions up to build metadata. -/
def cmpPrecedence (a b : Version) : Ordering :=
  (compare a.major b.major).then <| (compare a.minor b.minor).then <|
    (compare a.patch b.patch).then <| cmpPreRelease a.pre b.pre

/-- The order of versions: precedence, then build metadata. -/
def cmp (a b : Version) : Ordering :=
  (cmpPrecedence a b).then (cmpList cmpBuild a.build b.build)

/-! ## Text -/

def isIdentifierChar (c : Char) : Bool :=
  c.isAlphanum || c == '-'

/-- A number without leading zeros. -/
def numeral? (cs : List Char) : Option Nat :=
  if cs ≠ [] ∧ cs.all Char.isDigit ∧ (cs.head? = some '0' → cs = ['0']) then
    some (digitsValue cs)
  else none

/-- One of the three numbers of a version: it must fit in 64 bits. -/
def component? (cs : List Char) : Option Nat :=
  (numeral? cs).filter (· < UInt64.size)

/-- An identifier of a pre-release: one that consists of digits is a number and has no leading
zeros. -/
def preIdentifier? (cs : List Char) : Option PreIdentifier :=
  if cs = [] ∨ ¬ cs.all isIdentifierChar then none
  else if cs.all Char.isDigit then (numeral? cs).map .number
  else some (.name (String.ofList cs))

def buildIdentifier? (cs : List Char) : Option String :=
  if cs = [] ∨ ¬ cs.all isIdentifierChar then none else some (String.ofList cs)

/-- The build metadata with the plus sign in front of it. -/
def buildPart? : List Char → Option (List String)
  | [] => some []
  | '+' :: cs => (pieces '.' cs).mapM buildIdentifier?
  | _ => none

/-- What follows the numbers: a pre-release behind a hyphen, then build metadata behind a plus
sign. -/
def suffix? : List Char → Option (List PreIdentifier × List String)
  | '-' :: cs => do
    let pre ← (pieces '.' (cs.takeWhile (· ≠ '+'))).mapM preIdentifier?
    let build ← buildPart? (cs.dropWhile (· ≠ '+'))
    return (pre, build)
  | cs => (buildPart? cs).map fun build => ([], build)

def endsNumbers (c : Char) : Bool :=
  c == '-' || c == '+'

/-- The numbers in front of a suffix, as they are written. -/
def numbers? (cs : List Char) : Option (List Nat) :=
  (pieces '.' (cs.takeWhile (!endsNumbers ·))).mapM component?

/-- A version in strict form: three numbers and a suffix. -/
def ofText? (text : String) : Option Version := do
  let cs := text.toList
  match ← numbers? cs with
  | [major, minor, patch] =>
    let (pre, build) ← suffix? (cs.dropWhile (!endsNumbers ·))
    return ⟨major, minor, patch, pre, build⟩
  | _ => none

/-- The spelling of a pre-release identifier. -/
def PreIdentifier.text : PreIdentifier → String
  | .number n => toString n
  | .name s => s

/-- Texts with dots between them. -/
def dotted (texts : List String) : String :=
  ".".intercalate texts

/-- A version in strict form. -/
def text (v : Version) : String :=
  toString v.major ++ "." ++ toString v.minor ++ "." ++ toString v.patch
    ++ (if v.pre.isEmpty then "" else "-" ++ dotted (v.pre.map PreIdentifier.text))
    ++ (if v.build.isEmpty then "" else "+" ++ dotted v.build)

end Version

end Retrofit

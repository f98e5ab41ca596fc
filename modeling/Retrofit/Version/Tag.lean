import Retrofit.Text.Blank
import Retrofit.Version.Basic

/-!
# Version tags

Packages are tagged with whatever their authors write: `v1.2`, `=2.0.1`, ` 3 `.

**Reading** (`Version.ofTag?`). White space around a tag and one leading `v` or `=` do not count,
and missing numbers are zero.

**Order** (`Tag.cmp`). Tags that are no version come first; the others are ordered by version.
Tags that are equal so far are ordered by their text, so only equal texts compare equal.

**Selection** (`Tag.select`). The greatest of the available tags that is not above the requested
one, as it is written. If there is none the answer is the tag `0.0.0`.
-/

namespace Retrofit

open Text

/-- The number of a tag that is missing is zero. -/
def Version.ofNumbers? : List Nat → Option (Nat × Nat × Nat)
  | [major] => some (major, 0, 0)
  | [major, minor] => some (major, minor, 0)
  | [major, minor, patch] => some (major, minor, patch)
  | _ => none

/-- The part of a tag that is read as a version. -/
def Version.tagBody (tag : String) : List Char :=
  let cs := trim tag.toList
  match cs with
  | 'v' :: rest => trim rest
  | '=' :: rest => trim rest
  | _ => trim cs

def Version.ofTag? (tag : String) : Option Version := do
  let cs := Version.tagBody tag
  let (major, minor, patch) ← Version.ofNumbers? (← Version.numbers? cs)
  let (pre, build) ← Version.suffix? (cs.dropWhile (!Version.endsNumbers ·))
  return ⟨major, minor, patch, pre, build⟩

namespace Tag

/-- The tag that stands for "no version applies". -/
def none : String := "0.0.0"

/-- The order of tags: no version before any version, versions by their order, ties by text. -/
def cmp (a b : String) : Ordering :=
  match Version.ofTag? a, Version.ofTag? b with
  | some v, some w => (v.cmp w).then (Version.cmpText a b)
  | some _, .none => .gt
  | .none, some _ => .lt
  | .none, .none => Version.cmpText a b

/-- Whether one tag may stand in front of another in a sorted list. -/
def le (a b : String) : Bool :=
  cmp a b != .gt

/-- Tags in ascending order. -/
def sort (tags : List String) : List String :=
  tags.mergeSort le

/-- The better of two choices for `target`: a tag replaces the current choice if its version is
not above the target and above that of the choice. -/
def prefer (target : Version) (choice : Version × String) (tag : String) : Version × String :=
  match Version.ofTag? tag with
  | some v => if v.cmp target ≠ .gt ∧ v.cmp choice.1 = .gt then (v, tag) else choice
  | .none => choice

/-- The tag among `available` that serves `requested`: the greatest one not above it. -/
def select (requested : String) (available : List String) : String :=
  match Version.ofTag? requested with
  | some target => (available.foldl (prefer target) (Version.zero, none)).2
  | .none => none

end Tag

end Retrofit

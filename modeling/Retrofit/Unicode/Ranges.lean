import Retrofit.Text.Pieces

/-!
# Sets of characters by ranges

A set of characters is written as a text of ranges in hexadecimal, `30-39 5f`, in ascending order
and without overlap. `Ranges.contains` looks a character up by halving.
-/

namespace Retrofit.Unicode

/-- Ranges of character numbers, ascending and apart from each other. -/
structure Ranges where
  bounds : Array (Nat × Nat)
deriving Repr

namespace Ranges

/-- The number that hexadecimal digits stand for. -/
def hexNumber (cs : List Char) : Nat :=
  cs.foldl (fun n c =>
    n * 16 + (if c.isDigit then c.toNat - '0'.toNat else c.toNat - 'a'.toNat + 10)) 0

/-- A single number or two with a hyphen between them. -/
def range (cs : List Char) : Nat × Nat :=
  match Text.pieces '-' cs with
  | [first, last] => (hexNumber first, hexNumber last)
  | _ => (hexNumber cs, hexNumber cs)

/-- The set that a text of ranges describes. -/
def ofText (text : String) : Ranges :=
  ⟨((Text.pieces ' ' text.toList).map range).toArray⟩

/-- The set that several lines of ranges describe. -/
def ofLines (lines : List String) : Ranges :=
  ⟨(lines.flatMap fun line => (Text.pieces ' ' line.toList).map range).toArray⟩

/-- Whether a number lies in one of the ranges with an index from `lo` up to `hi`; each step
halves the distance of the two. -/
def search (r : Ranges) (n : Nat) : Nat → Nat → Nat → Bool
  | 0, _, _ => false
  | fuel + 1, lo, hi =>
    if hi ≤ lo then false
    else
      let mid := (lo + hi) / 2
      match r.bounds[mid]? with
      | none => false
      | some (first, last) =>
        if n < first then search r n fuel lo mid
        else if last < n then search r n fuel (mid + 1) hi
        else true

/-- Whether a character is in the set. -/
def contains (r : Ranges) (c : Char) : Bool :=
  r.search c.toNat (r.bounds.size + 1) 0 r.bounds.size

/-- How many ranges there are in several sets after those that touch have been joined. -/
def joinedCount (sets : List Ranges) : Nat :=
  let bounds := (sets.flatMap fun r => r.bounds.toList).mergeSort fun a b => a.1 ≤ b.1
  let gaps := (bounds.zip (bounds.drop 1)).countP fun (a, b) => a.2 + 1 < b.1
  if bounds.isEmpty then 0 else gaps + 1

end Ranges

end Retrofit.Unicode

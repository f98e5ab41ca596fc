import Retrofit.Pattern.Program

/-!
# The first match of a pattern

**Threads.** A search runs all ways through a program side by side. A thread is a place in the
program with the places in the text that it has marked. Threads are kept in order of preference,
and of two threads at one instruction only the preferred one is kept, so the work at each character
is bounded by the size of the program.

**Preference.** A thread that accepts ends the less preferred ones. As long as none has accepted, a
new thread starts at every place behind the others. The match found last is therefore the preferred
one among those that start first.
-/

namespace Retrofit

/-- A match of a pattern in a text. -/
structure Match where
  /-- The text in front of the match. -/
  before : List Char
  whole : List Char
  /-- The text behind the match. -/
  after : List Char
  /-- The texts of the captured groups, from the first on; none for those that took no part. -/
  groups : List (Option (List Char))
  /-- The named groups. -/
  names : List (String × Nat)
deriving DecidableEq, Repr

namespace Match

/-- The text of a group with a number from one on; nothing for one that took no part. -/
def group (m : Match) (n : Nat) : List Char :=
  ((m.groups[n - 1]?).bind id).getD []

/-- The text of a named group; nothing for a name that is unknown. -/
def named (m : Match) (name : String) : List Char :=
  match m.names.find? (·.1 == name) with
  | some (_, n) => m.group n
  | none => []

end Match

namespace Program

/-- A way through a program: the next instruction and the marked places. -/
structure Thread where
  instruction : Nat
  marks : Array (Option Nat)

/-- The threads at characters, the last in front, and the marks of one that has accepted. -/
structure Frontier where
  seen : Array Bool
  waiting : List Thread
  accepted : Option (Array (Option Nat))

/-- Follows threads up to characters, the first one first. Each instruction is visited once. -/
def follow (p : Program) (place : Nat) (before after : Option Char) :
    Nat → List Thread → Frontier → Frontier
  | 0, _, frontier => frontier
  | _, [], frontier => frontier
  | fuel + 1, thread :: rest, frontier =>
    if frontier.seen.getD thread.instruction true then
      follow p place before after fuel rest frontier
    else
      let seen := { frontier with seen := frontier.seen.setIfInBounds thread.instruction true }
      match p.code.getD thread.instruction .accept with
      | .char _ _ =>
        follow p place before after fuel rest { seen with waiting := thread :: seen.waiting }
      | .assert assertion next =>
        let rest := if assertion.holds before after then ⟨next, thread.marks⟩ :: rest else rest
        follow p place before after fuel rest seen
      | .mark slot next =>
        let marks := thread.marks.setIfInBounds slot (some place)
        follow p place before after fuel (⟨next, marks⟩ :: rest) seen
      | .fork first second =>
        follow p place before after fuel
          (⟨first, thread.marks⟩ :: ⟨second, thread.marks⟩ :: rest) seen
      | .accept => { seen with accepted := some thread.marks }

/-- The threads behind a character. -/
def advance (p : Program) (c : Char) (waiting : List Thread) : List Thread :=
  waiting.filterMap fun thread =>
    match p.code.getD thread.instruction .accept with
    | .char chars next => if chars.contains c then some ⟨next, thread.marks⟩ else none
    | _ => none

/-- The marks of the first match, from a place on where threads run and a match may be known. -/
def scan (p : Program) (place : Nat) (before : Option Char) (threads : List Thread)
    (found : Option (Array (Option Nat))) (text : List Char) : Option (Array (Option Nat)) :=
  let threads :=
    if found.isSome then threads
    else threads ++ [⟨p.entry, Array.replicate (2 * (p.groups + 1)) none⟩]
  let frontier := p.follow place before text.head? (threads.length + 2 * p.code.size + 1) threads
    ⟨Array.replicate p.code.size false, [], none⟩
  let found := frontier.accepted.or found
  match text with
  | [] => found
  | c :: cs =>
    let threads := p.advance c frontier.waiting.reverse
    if threads.isEmpty && found.isSome then found
    else scan p (place + 1) (some c) threads found cs

/-- The text between two marks. -/
def marked? (marks : Array (Option Nat)) (text : List Char) (n : Nat) : Option (List Char) := do
  let start ← marks.getD (2 * n) none
  let stop ← marks.getD (2 * n + 1) none
  return (text.drop start).take (stop - start)

def firstMatch? (p : Program) (text : List Char) : Option Match := do
  let marks ← p.scan 0 none [] none text
  let start ← marks.getD 0 none
  let stop ← marks.getD 1 none
  return {
    before := text.take start
    whole := (text.drop start).take (stop - start)
    after := text.drop (start + (stop - start))
    groups := (List.range p.groups).map fun n => marked? marks text (n + 1)
    names := p.names }

/-- A match divides the text. -/
theorem text_of_firstMatch? {p : Program} {text : List Char} {m : Match}
    (h : p.firstMatch? text = some m) : m.before ++ (m.whole ++ m.after) = text := by
  simp only [firstMatch?, Option.bind_eq_bind, Option.bind_eq_some_iff, Option.pure_def,
    Option.some.injEq] at h
  obtain ⟨marks, _, start, _, stop, _, rfl⟩ := h
  simp only [← List.drop_drop, List.take_append_drop]

end Program

/-- A search for the first match in a text. What it finds is a part of the text. -/
structure Search where
  find? : List Char → Option Match
  text_of_find? : ∀ {text m}, find? text = some m → m.before ++ (m.whole ++ m.after) = text

def Program.search (p : Program) : Search :=
  ⟨p.firstMatch?, Program.text_of_firstMatch?⟩

end Retrofit

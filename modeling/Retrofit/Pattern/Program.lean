import Retrofit.Pattern.Basic

/-!
# Programs for patterns

A pattern is laid out as instructions that name the instructions behind them. A fork tries its
first way before its second, so that the order of ways is the order of preference.

A repetition of something that can match nothing enters its body before it asks for another round;
without this, a round that matches nothing would not be tried at all.
-/

namespace Retrofit

/-- A step of a match. -/
inductive Instruction where
  /-- Consumes a character of a class. -/
  | char (chars : CharClass) (next : Nat)
  | assert (assertion : Assertion) (next : Nat)
  /-- Remembers the place in a slot. -/
  | mark (slot next : Nat)
  | fork (first second : Nat)
  | accept
deriving Repr, Inhabited

/-- Instructions, and the one to begin with. -/
structure Program where
  code : Array Instruction
  entry : Nat
  /-- The number of captured groups. -/
  groups : Nat
  /-- The named groups. -/
  names : List (String × Nat)

namespace Pattern

/-- A fork that goes on with a body or leaves it. -/
def choice (greedy : Bool) (body leave : Nat) : Instruction :=
  if greedy then .fork body leave else .fork leave body

/-- Adds the instructions of a pattern in front of the instruction `next`, and returns the first of
them. -/
def emit : Pattern → Nat → Array Instruction → Nat × Array Instruction
  | empty, next, code => (next, code)
  | char chars, next, code => (code.size, code.push (.char chars next))
  | assert assertion, next, code => (code.size, code.push (.assert assertion next))
  | capture group inner, next, code =>
    let (body, code) := inner.emit code.size (code.push (.mark (2 * group + 1) next))
    (code.size, code.push (.mark (2 * group) body))
  | seq first second, next, code =>
    let (rest, code) := second.emit next code
    first.emit rest code
  | either first second, next, code =>
    let (right, code) := second.emit next code
    let (left, code) := first.emit next code
    (code.size, code.push (.fork left right))
  | rounds inner least most greedy, next, code =>
    let repeated (n start : Nat) (code : Array Instruction) : Nat × Array Instruction :=
      (List.range n).foldl (fun (rest, code) _ => inner.emit rest code) (start, code)
    match most with
    | some most =>
      let (rest, code) := (List.range (most - least)).foldl (fun (rest, code) _ =>
        let (body, code) := inner.emit rest code
        (code.size, code.push (choice greedy body next))) (next, code)
      repeated least rest code
    | none =>
      let again := code.size
      let (body, code) := inner.emit again (code.push .accept)
      let code := code.setIfInBounds again (choice greedy body next)
      if least = 0 then
        if 0 < inner.minLength then (again, code)
        else (code.size, code.push (choice greedy body next))
      else repeated (least - 1) body code

def program (pattern : Pattern) (names : List (String × Nat)) : Program :=
  let (entry, code) := (capture 0 pattern).emit 0 #[.accept]
  ⟨code, entry, pattern.groupCount, names⟩

end Pattern

end Retrofit

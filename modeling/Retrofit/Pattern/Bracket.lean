import Retrofit.Pattern.Escape

/-!
# Classes in brackets

Members are characters, ranges, escapes, named ASCII classes and further brackets. Two members side
by side are united; `&&`, `--` and `~~` combine what stands on their left with the members on their
right, from left to right. A closing bracket in front and hyphens in front or at the end are members
themselves.
-/

namespace Retrofit.Pattern

/-- The operations between members. -/
inductive SetOperation where
  | intersection
  | difference
  | symmetricDifference
deriving DecidableEq

/-- The class that an operation makes of two. -/
def SetOperation.apply : SetOperation → CharClass → CharClass → CharClass
  | intersection => .intersection
  | difference => .difference
  | symmetricDifference => .symmetricDifference

/-- What has been read of a bracket: the operation that waits for its right side, the members since
then, and how deeply brackets are nested in it. -/
structure BracketState where
  left : Option (CharClass × SetOperation)
  members : CharClass
  height : Nat

namespace BracketState

def add (s : BracketState) (chars : CharClass) : BracketState :=
  { s with members := .union s.members chars }

/-- The class that has been read so far. -/
def value (f : Flags) (s : BracketState) : CharClass :=
  match s.left with
  | none => s.members
  | some (left, operation) => operation.apply (f.fold left) (f.fold s.members)

end BracketState

/-- A named ASCII class, from behind its opening bracket on, and the text behind it. -/
def asciiClass? : List Char → Option (Bool × CharClass × List Char)
  | ':' :: cs =>
    let (negated, cs) := match cs with
      | '^' :: cs => (true, cs)
      | cs => (false, cs)
    let name := cs.takeWhile (· != ':')
    match cs.dropWhile (· != ':') with
    | ':' :: ']' :: rest => (CharClass.ascii? (String.ofList name)).map (negated, ·, rest)
    | _ => none
  | _ => none

/-- A member that is no bracket: a character, or a class. -/
def member? (f : Flags) (cs : List Char) : Option ((Char ⊕ CharClass) × List Char) :=
  match cs with
  | '\\' :: cs =>
    match escape? f cs with
    | some (.char c, rest) => some (.inl c, rest)
    | some (.chars chars, rest) => some (.inr chars, rest)
    | _ => none
  | c :: cs => if f.admits c then some (.inl c, cs) else none
  | [] => none

/-- A member or a range, and the text behind it. -/
def range? (f : Flags) (cs : List Char) : Option (CharClass × List Char) := do
  let (first, rest) ← member? f cs
  let alone : Option (CharClass × List Char) :=
    match first with
    | .inl c => some (.single c, rest)
    | .inr chars => some (chars, rest)
  match f.skip rest with
  | [] => none
  | '-' :: behind =>
    match f.skip behind with
    | ']' :: _ | '-' :: _ => alone
    | behind =>
      let (last, rest) ← member? f behind
      match first, last with
      | .inl a, .inl b => if a ≤ b then some (.range a b, rest) else none
      | _, _ => none
  | _ => alone

/-- Whether there are hyphens in front of the members, at most as many as the fuel, and the text
behind them. -/
def leadingHyphens (f : Flags) : Nat → List Char → Bool × List Char
  | fuel + 1, '-' :: cs => (true, (leadingHyphens f fuel (f.skip cs)).2)
  | _, cs => (false, cs)

/-- What stands in front of the first member: the sign of negation, and members that could not
stand elsewhere. -/
def openBracket (f : Flags) (cs : List Char) : Bool × BracketState × List Char :=
  let (negated, cs) := match f.skip cs with
    | '^' :: cs => (true, f.skip cs)
    | cs => (false, cs)
  let start : BracketState := ⟨none, .nothing, 1⟩
  match leadingHyphens f cs.length cs with
  | (true, cs) => (negated, start.add (.single '-'), cs)
  | (false, cs) =>
    match cs with
    | ']' :: cs => (negated, start.add (.single ']'), f.skip cs)
    | cs => (negated, start, cs)

mutual

/-- A class in brackets, from behind its opening bracket on, how deeply brackets are nested in it,
and the text behind it. -/
def bracket? (f : Flags) : Nat → List Char → Option (CharClass × Nat × List Char)
  | 0, _ => none
  | fuel + 1, cs => do
    let (negated, state, cs) := openBracket f cs
    let (state, cs) ← members? f fuel state cs
    let chars ← f.foldAndNegate? negated (state.value f)
    return (chars, state.height, cs)

/-- The members up to the closing bracket, and the text behind it. -/
def members? (f : Flags) : Nat → BracketState → List Char → Option (BracketState × List Char)
  | 0, _, _ => none
  | fuel + 1, state, cs =>
    let operate (operation : SetOperation) (cs : List Char) : Option (BracketState × List Char) :=
      members? f fuel { state with left := some (state.value f, operation), members := .nothing } cs
    match f.skip cs with
    | [] => none
    | ']' :: cs => some (state, cs)
    | '[' :: cs =>
      match asciiClass? cs with
      | some (negated, chars, rest) => do
        let chars ← f.foldAndNegate? negated chars
        members? f fuel (state.add chars) rest
      | none => do
        let (chars, height, rest) ← bracket? f fuel cs
        members? f fuel { state.add chars with height := max state.height (height + 1) } rest
    | '&' :: '&' :: cs => operate .intersection cs
    | '-' :: '-' :: cs => operate .difference cs
    | '~' :: '~' :: cs => operate .symmetricDifference cs
    | cs => do
      let (chars, rest) ← range? f cs
      members? f fuel (state.add chars) rest

end

end Retrofit.Pattern

import Retrofit.Pattern.Match

/-!
# Replacement templates

A dollar sign in a template begins a token that stands for a part of the match: `$&` for the whole
of it, ``$` `` for the text in front of it, `$'` for the text behind it, `$n` and `$nn` for a group,
`$<name>` for a named one. `$$` is a dollar sign. A dollar sign that begins no token stands for
itself.

Two digits name a group if there is one with their number; if not, the first digit does if it can.
-/

namespace Retrofit.Template

def digit? (c : Char) : Option Nat :=
  if c.isDigit then some (c.toNat - '0'.toNat) else none

/-- The number of a group that exists, among those from one on. -/
def groupNumber? (m : Match) (n : Nat) : Option Nat :=
  if 0 < n ∧ n ≤ m.groups.length then some n else none

/-- The group that the digits behind a dollar sign name, and how many digits name it. -/
def numbered? (m : Match) : List Char → Option (Nat × Nat)
  | [] => none
  | c :: cs => do
    let one ← digit? c
    let two := (cs.head?.bind digit?).bind fun d => groupNumber? m (one * 10 + d)
    match two with
    | some n => some (n, 2)
    | none => (groupNumber? m one).map (·, 1)

/-- What the token behind a dollar sign stands for, and how many characters it takes. -/
def token (m : Match) (cs : List Char) : List Char × Nat :=
  match cs with
  | '$' :: _ => (['$'], 1)
  | '&' :: _ => (m.whole, 1)
  | '`' :: _ => (m.before, 1)
  | '\'' :: _ => (m.after, 1)
  | '<' :: rest =>
    let name := rest.takeWhile (· != '>')
    if name.length < rest.length then (m.named (String.ofList name), name.length + 2)
    else (['$'], 0)
  | cs =>
    match numbered? m cs with
    | some (n, used) => (m.group n, used)
    | none => (['$'], 0)

/-- The text of a template, after a number of characters that belong to a token. -/
def expandFrom (m : Match) : Nat → List Char → List Char
  | _, [] => []
  | n + 1, _ :: cs => expandFrom m n cs
  | 0, c :: cs =>
    if c = '$' then (token m cs).1 ++ expandFrom m (token m cs).2 cs
    else c :: expandFrom m 0 cs

/-- The text that takes the place of a match. -/
def expand (m : Match) (template : String) : List Char :=
  expandFrom m 0 template.toList

end Retrofit.Template

/-!
# Addresses and edits

**Addresses.** A node of a script is named by a list of indices that alternate between a statement
of a list and a block of that statement. An even number of indices names a list of statements, the
empty one the whole script; an odd number names a statement. `[0, 0, 2]` is the third statement in
the first block of the first statement.

**Edits.** An edit inserts a statement at the front of a list, appends statements to the script, or
replaces a statement by a snippet into which nodes of the script are copied first.
-/

namespace Retrofit.Script

/-- The address of a node. -/
abbrev Address := List Nat

/-- Whether an address names a statement and not a list. -/
def Address.isStatement (a : Address) : Bool :=
  a.length % 2 == 1

def Address.text (a : Address) : String :=
  "[" ++ ", ".intercalate (a.map toString) ++ "]"

/-- A copy of the node `source` of a script to the place `target` of a snippet. -/
structure Substitution where
  target : Address
  source : Address
deriving DecidableEq, Repr

/-- A structural edit. -/
inductive Edit where
  /-- The first statement of the snippet becomes the first of the list. -/
  | unshift (list : Address) (snippet : String)
  /-- All statements of the snippet follow those of the script. -/
  | push (snippet : String)
  /-- The first statement of the snippet, after the substitutions, takes the place of the
  statement. -/
  | assign (statement : Address) (snippet : String) (substitutions : List Substitution)
deriving DecidableEq, Repr

end Retrofit.Script

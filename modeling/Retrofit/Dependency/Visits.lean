import Retrofit.Dependency.Basic

/-!
# Walking dependency trees

**Order.** The nodes of a list come in the order of their names, and each node before the ones below
it. Missing nodes are left out with all below them.

**Names.** A package that others depend on occurs once for each of them, so a walk may come to a
name more than once.
-/

namespace Retrofit

mutual

/-- The nodes of packages that are not missing, from a node downwards, with their names. -/
def Dependency.visits (name : String) : Dependency → List (String × Dependency)
  | .mk info missing below =>
    if missing then [] else (name, .mk info missing below) :: visitsAll below

/-- The nodes of packages that are not missing, from the nodes of a list downwards. -/
def Dependency.visitsAll : List (String × Dependency) → List (String × Dependency)
  | [] => []
  | (name, node) :: rest => node.visits name ++ visitsAll rest

end

/-- The nodes of packages that are not missing. -/
def Dependencies.visits (tree : Dependencies) : List (String × Dependency) :=
  Dependency.visitsAll tree

end Retrofit

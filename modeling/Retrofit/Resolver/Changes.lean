import Retrofit.Dependency.Visits

/-!
# What an update has changed

Two trees are compared by the versions of their packages. A package has changed if it was not
installed before, or with another version; no version at all counts as one of its own.
-/

namespace Retrofit.Dependencies

/-- The installed packages with their versions. -/
def versions (tree : Dependencies) : Dictionary (Option String) :=
  Dictionary.ofList (tree.visits.map fun (name, node) => (name, node.info.version))

/-- The packages that are not in `before` with the version that they have here. -/
def changedSince (before : Dictionary (Option String)) (tree : Dependencies) : Dependencies :=
  Dictionary.ofList (tree.visits.filter fun (name, node) =>
    Dictionary.get? name before ≠ some node.info.version)

end Retrofit.Dependencies

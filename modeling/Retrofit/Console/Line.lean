import Retrofit.Patch.Pass
import Retrofit.Path.Display

/-!
# What a user sees

Results go to the output, progress and errors to a second stream, so that the output can be read by
another program.
-/

namespace Retrofit

/-- A line for the user. -/
inductive Line where
  | output (text : String)
  | progress (text : String)
deriving DecidableEq, Repr

namespace Line

def remark (text : String) : Line :=
  .output ("  " ++ text)

/-- The end of a command that has done what it was to do. -/
def success (text : String) : Line :=
  .output ("✓ " ++ text)

/-- The end of a command that has failed. -/
def error (message : String) : Line :=
  .progress ("Error: " ++ message)

end Line

/-- The line for an event in the project at `root`. Artifacts that are up to date are shown only if
`verbose` is set. -/
def Event.line? (root : String) (verbose : Bool) : Event → Option Line
  | .section title => some (.progress title)
  | .installed name version => some (.progress ("  + " ++ name ++ " " ++ version))
  | .patched artifact => some (.progress ("  patched " ++ Path.shown root artifact))
  | .upToDate artifact =>
    if verbose then some (.progress ("  fresh " ++ Path.shown root artifact)) else none
  | .failed source reason =>
    some (.progress ("  failed " ++ Path.shown root source ++ ": " ++ reason))
  | .warning text => some (.progress ("warning: " ++ text))

end Retrofit

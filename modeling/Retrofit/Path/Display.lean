import Retrofit.Path.Basic

/-!
# Showing paths

Inside the project a path is shown as it is seen from there. Two paths are compared part by part,
where empty segments and dots count only at the beginning.
-/

namespace Retrofit.Path

def staysPut (s : Segment) : Bool :=
  s = [] || s = here

/-- The segments by which paths are compared. -/
def parts (path : String) : List Segment :=
  match segments path with
  | [] => []
  | first :: rest => first :: rest.filter fun s => !staysPut s

/-- What follows in the second path behind the parts of the first one. -/
def behind? : List Segment → List Segment → Option (List Segment)
  | [], rest => some (rest.dropWhile staysPut)
  | _ :: _, [] => none
  | p :: ps, s :: rest =>
    if s = p then behind? ps rest
    else if staysPut s then behind? (p :: ps) rest
    else none

/-- A path as it is shown in the project at `root`. -/
def shown (root path : String) : String :=
  if isAbsolute root ≠ isAbsolute path then path
  else match behind? (parts root) (segments path) with
    | some rest => ofSegments rest
    | none => path

end Retrofit.Path

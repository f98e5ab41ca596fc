import Retrofit.Text.Pieces

/-!
# Paths

File lists, module locations and import specifiers all end up in scripts, so they are texts
whose segments stand between slashes, on every system.

**Normal form.** `normalize` folds the segments onto a stack: an empty segment and `.` add
nothing, `..` takes the last segment back, and what cannot be taken back stays only in a relative
path. The result names the same place without a detour.

**Artifacts.** The patched form of a file stands beside it under `patchedName`, its name with a
marker in front of the last extension; `sourceName?` finds the way back.
-/

namespace Retrofit.Path

open Text

/-- A part of a path between two slashes. -/
abbrev Segment := List Char

/-- The segment that names the directory itself. -/
def here : Segment := ['.']

/-- The segment that names the directory above. -/
def above : Segment := ['.', '.']

/-- The segments of a path, empty ones included. -/
def segments (path : String) : List Segment :=
  pieces '/' path.toList

def ofSegments (segments : List Segment) : String :=
  String.ofList (joinWith ['/'] segments)

/-- Whether a path starts at the root. -/
def isAbsolute (path : String) : Bool :=
  path.toList.head? == some '/'

/-! ## Normal form -/

/-- One step down a path: `stack` holds the segments so far, the last one first. -/
def push (absolute : Bool) (stack : List Segment) (segment : Segment) : List Segment :=
  if segment = [] ∨ segment = here then stack
  else if segment = above then
    match stack with
    | last :: rest => if last = above then above :: last :: rest else rest
    | [] => if absolute then [] else [above]
  else segment :: stack

/-- The segments of a path without detours, from the first to the last. -/
def resolve (absolute : Bool) (segments : List Segment) : List Segment :=
  (segments.foldl (push absolute) []).reverse

/-- The shortest way to write a path; the empty relative path is written as a dot. -/
def normalize (path : String) : String :=
  let absolute := isAbsolute path
  let joined := ofSegments (resolve absolute (segments path))
  if absolute then "/" ++ joined
  else if joined.isEmpty then "." else joined

/-- The path `rest` seen from `base`, in normal form; an empty side adds nothing. -/
def join (base rest : String) : String :=
  if base.isEmpty then (if rest.isEmpty then "." else normalize rest)
  else if rest.isEmpty then normalize base
  else normalize (base ++ "/" ++ rest)

/-- The path `rest` taken from the directory `root`, as it is written; an absolute path stays. -/
def under (root rest : String) : String :=
  if isAbsolute rest then rest
  else if root.isEmpty || root.toList.getLast? == some '/' then root ++ rest
  else root ++ "/" ++ rest

/-! ## Parts of a path -/

/-- The directory of the normal form: all in front of its last slash, and a dot where there is
none. -/
def dirname (path : String) : String :=
  let path := (normalize path).toList
  match lastIndexOf? '/' path with
  | some 0 => "/"
  | some i => String.ofList (path.take i)
  | none => "."

/-- The last segment of a path as it is written. -/
def basename (path : String) : String :=
  String.ofList ((segments path).getLast?.getD [])

/-- The length of the longest beginning that two lists share. -/
def commonLength : List Segment → List Segment → Nat
  | a :: as, b :: bs => if a = b then commonLength as bs + 1 else 0
  | _, _ => 0

/-- The segments that name a place below the start: those of the normal form, without a lone
dot. -/
def steps (path : String) : List Segment :=
  (segments (normalize path)).filter fun s => s ≠ [] ∧ s ≠ here

/-- The way from the directory `start` to `target`: up to the last directory they share, then
down. It is empty if the two are the same. -/
def relative (start target : String) : String :=
  let a := steps start
  let b := steps target
  let common := commonLength a b
  ofSegments (List.replicate (a.length - common) above ++ b.drop common)

/-- Whether a file is a script by its name. -/
def isScript (file : String) : Bool :=
  (stripEnd? ".js".toList file.toList).isSome

/-! ## Artifacts -/

/-- The name of the patched form of `file`: the marker goes in front of the last extension of the
last segment, and behind a segment that has none. -/
def patchedName (file marker : String) : String :=
  let name := (segments file).getLast?.getD []
  let front := file.toList.take (file.toList.length - name.length)
  match lastIndexOf? '.' name with
  | some (dot + 1) =>
    String.ofList (front ++ name.take (dot + 1) ++ '.' :: marker.toList ++ name.drop (dot + 1))
  | _ => file ++ "." ++ marker

/-- A name without its marker, which is looked for at the end first, and then in front of the last
extension. -/
def unmarked? (marker : String) (name : Segment) : Option Segment :=
  let dotted := '.' :: marker.toList
  match stripEnd? dotted name with
  | some front => some front
  | none => do
    let dot ← lastIndexOf? '.' name
    let front ← stripEnd? dotted (name.take dot)
    return front ++ name.drop dot

/-- The name of the file whose patched form would be called `name`, if there is one. -/
def sourceName? (name marker : String) : Option String :=
  (unmarked? marker name.toList).map String.ofList |>.filter fun source =>
    !source.isEmpty && patchedName source marker == name

end Retrofit.Path

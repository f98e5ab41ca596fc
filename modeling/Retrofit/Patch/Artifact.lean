import Retrofit.Files.Basic

/-!
# Artifacts on disk

An artifact is known by its name: it stands beside a file, and is called like the patched form of
it. No list of what was written is kept.
-/

namespace Retrofit

/-- The path of another name in the directory of a path. -/
def Path.beside (path name : String) : String :=
  ofSegments ((segments path).dropLast ++ [name.toList])

namespace Files

/-- Whether the file with a path is the artifact of a file beside it. -/
def isArtifact (files : Files) (marker path : String) : Bool :=
  match Path.sourceName? (Path.basename path) marker with
  | none => false
  | some source => files.isFile (Path.beside path source)

/-- The paths of the artifacts at or below a path. -/
def artifactsAt (files : Files) (marker path : String) : List String :=
  (files.filesAt path).filter (files.isArtifact marker)

end Files

end Retrofit

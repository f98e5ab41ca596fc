import Retrofit.Dependency.Basic
import Retrofit.Files.Basic
import Retrofit.Json.Shape
import Retrofit.Project.ResolverConfig

/-!
# Resolvers

A resolver knows what is installed in a project, and installs what is not. Listing reads the files
only. An update may change them, also when it fails.
-/

namespace Retrofit

/-- Why a resolver cannot answer. -/
inductive ResolverError where
  /-- Metadata that exists cannot be read. -/
  | unreadable (path : String) (fault : FileFault)
  /-- Metadata that can be read does not have the shape of metadata. -/
  | malformed (path : String) (flaw : Flaw)
  /-- Nothing is there that could install packages. -/
  | noManager (directory : String)
  | programNotFound (program : String)
  | programUnstartable (program reason : String)
  /-- The program has ended with a failure, and has complained. -/
  | programFailed (program : String) (arguments : List String) (complaint : String)
  | other (reason : String)
deriving DecidableEq, Repr

def ResolverError.message : ResolverError → String
  | .unreadable path fault => "Failed to read " ++ path ++ ": " ++ fault.message
  | .malformed path flaw => "Failed to parse " ++ path ++ ": " ++ flaw.message
  | .noManager directory =>
    "Cannot install packages into " ++ directory ++ ": no package manager configured"
  | .programNotFound program =>
    "'" ++ program ++ "' not found. Install it with: npm install -g bower"
  | .programUnstartable program reason => "Failed to spawn " ++ program ++ ": " ++ reason
  | .programFailed program arguments complaint =>
    program ++ " " ++ " ".intercalate arguments ++ " failed: " ++ complaint
  | .other reason => reason

/-- What tells about the installed packages and installs others. -/
structure Resolver where
  /-- What is installed, as the tree below the project. -/
  list : ResolverConfig → Files → Except ResolverError Dependency
  /-- Installs the named packages, or all that the manifest declares if none is named, without the
  network if `offline` is set. The answer holds the packages that have changed. -/
  update : (names : List String) → (offline : Bool) → ResolverConfig → Files →
    Except ResolverError Dependencies × Files

end Retrofit

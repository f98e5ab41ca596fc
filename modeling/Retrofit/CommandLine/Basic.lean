/-!
# What a command line says

A command line holds one command, and options that every command takes. The options may stand before
the command and behind it; an option behind the command counts more.
-/

namespace Retrofit

/-- A shell for which completions can be written. -/
inductive Shell where
  | bash
  | elvish
  | fish
  | powershell
  | zsh
deriving DecidableEq, Repr

namespace Shell

def name : Shell → String
  | bash => "bash"
  | elvish => "elvish"
  | fish => "fish"
  | powershell => "powershell"
  | zsh => "zsh"

def ofName? (name : String) : Option Shell :=
  [bash, elvish, fish, powershell, zsh].find? (·.name = name)

end Shell

/-- What the program is asked to do. -/
inductive Command where
  /-- Install what is missing, and rebuild what is stale. -/
  | patch
  /-- Show the packages as a table. -/
  | list
  /-- Print the configuration of a module loader. -/
  | modules
  /-- Print all files. -/
  | files
  /-- Print the scripts of a package, or those among the given files. -/
  | js (package : String) (files : List String)
  /-- Remove the artifacts, or only show them. -/
  | clean (dryRun : Bool)
  /-- Print completions for a shell. -/
  | completions (shell : Shell)
deriving DecidableEq, Repr

/-- The options that every command takes. -/
structure GlobalOptions where
  root : Option String := none
  /-- The settings file. -/
  config : Option String := none
  patches : Option String := none
  baseDir : Option String := none
  vendorPrefix : Option String := none
  offline : Bool := false
  verbose : Bool := false
deriving DecidableEq, Repr

namespace GlobalOptions

/-- The options of two places, where those of `inner` count more. -/
def merge (outer inner : GlobalOptions) : GlobalOptions where
  root := inner.root <|> outer.root
  config := inner.config <|> outer.config
  patches := inner.patches <|> outer.patches
  baseDir := inner.baseDir <|> outer.baseDir
  vendorPrefix := inner.vendorPrefix <|> outer.vendorPrefix
  offline := inner.offline || outer.offline
  verbose := inner.verbose || outer.verbose

/-- The directory of the project. -/
def rootPath (o : GlobalOptions) : String :=
  o.root.getD "."

end GlobalOptions

/-- A command with the options for it. -/
structure Invocation where
  options : GlobalOptions
  command : Command
deriving DecidableEq, Repr

/-- Why a command line is not carried out. -/
inductive UsageError where
  | unknownArgument
  | unknownCommand
  /-- A value that is missing, or is none of those allowed. -/
  | badValue
  /-- An option that is given twice in one place. -/
  | repeatedOption
  /-- A value for an option that takes none. -/
  | needlessValue
  | missingArgument
  | missingCommand
  /-- Nothing is said at all. -/
  | nothingGiven
  /-- Help is asked for. -/
  | helpWanted
  /-- The version is asked for. -/
  | versionWanted
deriving DecidableEq, Repr

namespace UsageError

/-- How a command line is written. -/
def usage : String := "Usage: esx [OPTIONS] <COMMAND>"

/-- Whether the answer is just what was asked for. -/
def isAnswer : UsageError → Bool
  | helpWanted | versionWanted => true
  | _ => false

def message : UsageError → String
  | unknownArgument => "error: unexpected argument"
  | unknownCommand => "error: unrecognized subcommand"
  | badValue => "error: a value is missing or invalid"
  | repeatedOption => "error: an option cannot be used multiple times"
  | needlessValue => "error: a value was given for an option that takes none"
  | missingArgument => "error: a required argument was not provided"
  | missingCommand => "error: a subcommand is required"
  | nothingGiven | helpWanted => usage
  | versionWanted => "esx 0.1.0"

end UsageError

end Retrofit

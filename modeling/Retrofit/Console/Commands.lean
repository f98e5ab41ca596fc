import Retrofit.CommandLine.Basic
import Retrofit.Console.Line
import Retrofit.Console.Table
import Retrofit.Patch.Artifact
import Retrofit.Resolver.Manager
import Retrofit.Session.Stages
import Retrofit.Settings.Basic

/-!
# Carrying out commands

A command works on the files and shows lines. It fails with the first error, which is the last thing
that it shows; what it has done and shown before remains.
-/

namespace Retrofit

/-- What a command has done. -/
structure CommandResult where
  failed : Bool
  lines : List Line
  files : Files

/-- Where commands run. -/
structure Surroundings where
  /-- The package manager with a name, for the project at a path. -/
  manager : (name root : String) → PackageManager
  /-- The time that is written to files. -/
  now : Nat
  network : Network := .disabled

namespace Console

/-- The lines for the events of a project. -/
def progress (s : Settings) (verbose : Bool) (events : List Event) : List Line :=
  events.filterMap (Event.line? s.options.root verbose)

/-- Runs a stage in a new session, and shows what comes of it. -/
def inSession {α : Type} (around : Surroundings) (s : Settings) (verbose : Bool) (files : Files)
    (stage : Session → Stage α) (view : α → RunState → Except String (List Line)) :
    CommandResult :=
  let root := s.options.root
  let session : Session := {
    options := s.options
    resolver := .byManager (around.manager s.manager root) root
    network := around.network }
  let (result, w) := (stage session).runOn { files }
  let seen := progress s verbose w.events
  match (result.mapError SessionError.message).bind fun value => view value w.state with
  | .ok lines => ⟨false, seen ++ lines, w.files⟩
  | .error message => ⟨true, seen ++ [Line.error message], w.files⟩

/-- What is shown after a pass over the patches. -/
def patchLines (r : PatchReport) : List Line :=
  if r.total = 0 then [.remark "No patched files in the installed packages."]
  else [.success (toString r.rebuilt.length ++ " rebuilt, " ++ toString r.upToDate.length
    ++ " up to date")]

def listLines (packages : PackageMap) : List Line :=
  if packages.size = 0 then
    ["", "  No packages installed.", "  Add dependencies to bower.json and run 'esx patch'."].map
      .output
  else packages.table.map .output

/-- The scripts of a package, one to a line. -/
def scriptLines (p : Projection) (package : String) (names : List String) :
    Except String (List Line) :=
  match p.scripts? package names with
  | some files => .ok (files.map .output)
  | none => .error (Projection.unknownPackage package)

/-- Shows files and removes them one after the other, up to the first that cannot be removed. -/
def removeFiles (root : String) (now : Nat) : List String → Files → CommandResult
  | [], files => ⟨false, [], files⟩
  | path :: rest, files =>
    let line := Line.remark (Path.shown root path)
    match files.removeFile path now with
    | .error _ => ⟨true, [line, Line.error ("Failed to remove " ++ path)], files⟩
    | .ok files =>
      let result := removeFiles root now rest files
      { result with lines := line :: result.lines }

/-- Where the artifacts of a project are looked for. -/
def searched (s : Settings) (files : Files) : String :=
  Path.under s.options.root (ResolverConfig.load files s.options.root).installDirectory

/-- Removes the artifacts, or only shows them. -/
def clean (s : Settings) (dryRun : Bool) (now : Nat) (files : Files) : CommandResult :=
  let artifacts := files.artifactsAt s.options.marker (searched s files)
  let count := toString artifacts.length ++ " patched file(s)."
  if artifacts.isEmpty then ⟨false, [.success "Nothing to clean."], files⟩
  else if dryRun then
    let lines := artifacts.map fun path => .remark (Path.shown s.options.root path)
    ⟨false, lines ++ [.success ("Would remove " ++ count)], files⟩
  else
    let result := removeFiles s.options.root now artifacts files
    if result.failed then result
    else { result with lines := result.lines ++ [.success ("Removed " ++ count)] }

end Console

namespace Invocation

/-- Carries out a command with its settings. Completions are the same for all projects, so they are
not made here. -/
def runWith (around : Surroundings) (s : Settings) (files : Files) (i : Invocation) :
    CommandResult :=
  let inSession {α : Type} := @Console.inSession α around s i.options.verbose files
  let view (show? : Projection → Except String (List Line)) : CommandResult :=
    inSession Session.resolve fun _ state => show? (state.projection s.options)
  match i.command with
  | .patch => inSession (·.run around.now) fun report _ => .ok (Console.patchLines report)
  | .list => view fun p => .ok (Console.listLines p.packages)
  | .modules => view fun p =>
    .ok [.output (Json.array (p.moduleConfigs.map ModuleConfig.toJson)).pretty]
  | .files => view fun p => .ok (p.filenames.map .output)
  | .js package names => view fun p => Console.scriptLines p package names
  | .clean dryRun => Console.clean s dryRun around.now files
  | .completions _ => ⟨false, [], files⟩

/-- Carries out a command. -/
def run (around : Surroundings) (files : Files) (i : Invocation) : CommandResult :=
  match i.command, Settings.load files i.options with
  | .completions _, _ => ⟨false, [], files⟩
  | _, .error e => ⟨true, [Line.error e.message], files⟩
  | _, .ok s => i.runWith around s files

end Invocation

end Retrofit

import Retrofit.CommandLine.Token

/-!
# Reading command lines

**Places.** The arguments in front of the command and those behind it are read apart, so that an
option may be given once in each of the two.

**Pending arguments.** A value is not looked at until the next option or word begins. So of two
mistakes it is not always the first that counts: an option that does not exist is found before the
value in front of it is.

**Order.** What stands behind the command is settled before what is still pending in front of it.
-/

namespace Retrofit

/-- An argument whose value has not been looked at. -/
inductive Pending where
  /-- An option and, as soon as it is there, its value. -/
  | setting (setting : Setting) (value : Option String)
  | shell (name : String)
deriving DecidableEq, Repr

/-- What the arguments in one place have said so far. -/
structure Reading where
  options : GlobalOptions := {}
  dryRun : Bool := false
  /-- The package and the files. -/
  words : List String := []
  shell : Option Shell := none
  pending : Option Pending := none
  /-- Whether all that follows are words. -/
  wordsOnly : Bool := false
deriving DecidableEq, Repr

namespace Reading

/-- The option that waits for its value, if one does. -/
def waiting? (r : Reading) : Option Setting :=
  match r.pending with
  | some (.setting s none) => some s
  | _ => none

/-- Looks at the value that is pending. -/
def settle (r : Reading) : Except UsageError Reading :=
  match r.pending with
  | none => .ok r
  | some (.setting _ none) => .error .badValue
  | some (.setting s (some value)) =>
    if (s.get? r.options).isSome then .error .repeatedOption
    else if s.allows value then .ok { r with options := s.set value r.options, pending := none }
    else .error .badValue
  | some (.shell name) =>
    match Shell.ofName? name with
    | some shell => .ok { r with shell, pending := none }
    | none => .error .badValue

/-- Sets an option that must not be set yet. -/
def setOnce (given : Bool) (r : Reading) : Except UsageError Reading :=
  if given then .error .repeatedOption else .ok r

/-- Takes an option without a value. -/
def takeSwitch (s : Switch) (r : Reading) : Except UsageError Reading := do
  let r ← r.settle
  match s with
  | .help => .error .helpWanted
  | .version => .error .versionWanted
  | .offline => setOnce r.options.offline { r with options := { r.options with offline := true } }
  | .verbose => setOnce r.options.verbose { r with options := { r.options with verbose := true } }
  | .dryRun => setOnce r.dryRun { r with dryRun := true }

def takeLetters (place : Option Verb) : List Char → Reading → Except UsageError Reading
  | [], r => .ok r
  | c :: rest, r =>
    match (Switch.ofLetter? c).filter (·.belongsTo place) with
    | some s => do takeLetters place rest (← r.takeSwitch s)
    | none => .error .unknownArgument

/-- Takes an option with a value, or one whose value is to follow. -/
def takeSetting (s : Setting) (value : Option String) (r : Reading) :
    Except UsageError Reading := do
  let r ← r.settle
  let r := { r with pending := some (.setting s value) }
  if value.isSome then r.settle else return r

def takeNamed (place : Option Verb) (name : String) (value : Option String) (r : Reading) :
    Except UsageError Reading :=
  match Setting.ofName? name with
  | some s => r.takeSetting s value
  | none =>
    match (Switch.ofName? name).filter (·.belongsTo place) with
    | some s => if value.isSome then .error .needlessValue else r.takeSwitch s
    | none => .error .unknownArgument

/-- Takes a word that is no value. In front of the command there should be none. -/
def takeWord (place : Option Verb) (word : String) (r : Reading) : Except UsageError Reading :=
  match place with
  | some .js => do
    let r ← r.settle
    return { r with words := r.words ++ [word] }
  | some .completions =>
    match r.shell, r.pending with
    | some _, _ | _, some (.shell _) => .error .unknownArgument
    | none, _ => do
      let r ← r.settle
      return { r with pending := some (.shell word) }
  | some _ => .error .unknownArgument
  | none =>
    if r.wordsOnly ∧ (word = helpWord ∨ (Verb.ofText? word).isSome) then .error .unknownArgument
    else .error .unknownCommand

def take (place : Option Verb) (r : Reading) (argument : String) : Except UsageError Reading :=
  if r.wordsOnly then r.takeWord place argument
  else match Token.ofText argument with
    | .wordsFollow => .ok { r with wordsOnly := true }
    | .named name value => r.takeNamed place name value
    | .letters letters => takeLetters place letters r
    | .word word =>
      match r.waiting? with
      | some s => .ok { r with pending := some (.setting s (some word)) }
      | none => r.takeWord place word

end Reading

/-! ## Whole command lines -/

/-- The command with the arguments that have been read. -/
def Verb.command (verb : Verb) (r : Reading) : Except UsageError Command :=
  match verb with
  | patch => .ok .patch
  | list => .ok .list
  | modules => .ok .modules
  | files => .ok .files
  | clean => .ok (.clean r.dryRun)
  | js =>
    match r.words with
    | [] => .error .missingArgument
    | package :: names => .ok (.js package names)
  | completions =>
    match r.shell with
    | none => .error .missingArgument
    | some shell => .ok (.completions shell)

namespace Invocation

/-- What the arguments behind a command say. -/
def behind (verb : Verb) (arguments : List String) : Except UsageError Invocation := do
  let r ← arguments.foldlM (Reading.take (some verb)) {}
  let r ← r.settle
  return ⟨r.options, ← verb.command r⟩

/-- The answer to a call for help about commands. -/
def help : List String → UsageError
  | [] => .helpWanted
  | [word] =>
    if word = helpWord ∨ (Verb.ofText? word).isSome then .helpWanted else .unknownCommand
  | _ => .unknownCommand

/-- The invocation of a command line of which `r` has been read. -/
def readFrom (environment : Option String) : Reading → List String → Except UsageError Invocation
  | r, [] => do
    let r ← r.settle
    if r.options = {} ∧ environment.isNone then .error .nothingGiven else .error .missingCommand
  | r, argument :: rest =>
    let isWord := !r.wordsOnly && r.waiting?.isNone
    if isWord && argument = helpWord then .error (help rest)
    else match if isWord then Verb.ofText? argument else none with
      | some verb => do
        let inner ← behind verb rest
        let r ← r.settle
        let options := r.options.merge inner.options
        return { inner with options := { options with patches := options.patches <|> environment } }
      | none => do readFrom environment (← r.take none argument) rest

/-- The invocation of a command line. Where it does not say where the catalog is, the environment
may. -/
def ofArguments (environment : Option String) (arguments : List String) :
    Except UsageError Invocation :=
  readFrom environment {} arguments

end Invocation

end Retrofit

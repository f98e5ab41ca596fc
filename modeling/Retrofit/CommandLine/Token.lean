import Retrofit.CommandLine.Basic
import Retrofit.Text.Pieces

/-!
# The parts of a command line

An argument is a word, a name after two hyphens with or without a value, or letters after one
hyphen. Two hyphens alone make words of all that follows.
-/

namespace Retrofit

/-- An argument by its form. -/
inductive Token where
  | word (text : String)
  | letters (letters : List Char)
  | named (name : String) (value : Option String)
  | wordsFollow
deriving DecidableEq, Repr

/-- The form of an argument. A lone hyphen is a word. -/
def Token.ofText (argument : String) : Token :=
  match argument.toList with
  | ['-', '-'] => .wordsFollow
  | '-' :: '-' :: rest =>
    match Text.pieces '=' rest with
    | [] | [_] => .named (String.ofList rest) none
    | name :: value =>
      .named (String.ofList name) (some (String.ofList (Text.joinWith ['='] value)))
  | '-' :: c :: rest => .letters (c :: rest)
  | _ => .word argument

/-- The name of a command. -/
inductive Verb where
  | patch
  | list
  | modules
  | files
  | js
  | clean
  | completions
deriving DecidableEq, Repr

/-- The command that a word names. -/
def Verb.ofText? : String → Option Verb
  | "patch" => some patch
  | "list" => some list
  | "modules" => some modules
  | "files" => some files
  | "js" => some js
  | "clean" => some clean
  | "completions" => some completions
  | _ => none

/-- The word that asks for help in the place of a command. -/
def helpWord : String := "help"

/-! ## Options with a value -/

/-- An option that takes a value. -/
inductive Setting where
  | root
  | config
  | patches
  | baseDir
  | vendorPrefix
deriving DecidableEq, Repr

namespace Setting

def ofName? : String → Option Setting
  | "root" => some root
  | "config" => some config
  | "patches" => some patches
  | "base-dir" => some baseDir
  | "vendor-prefix" => some vendorPrefix
  | _ => none

/-- Whether a value may be given. A path that is empty may not. -/
def allows (s : Setting) (value : String) : Bool :=
  match s with
  | root | config => !value.isEmpty
  | _ => true

/-- The value that an option has got. -/
def get? (s : Setting) (o : GlobalOptions) : Option String :=
  match s with
  | root => o.root
  | config => o.config
  | patches => o.patches
  | baseDir => o.baseDir
  | vendorPrefix => o.vendorPrefix

/-- The options in which `s` has a value. -/
def set (s : Setting) (value : String) (o : GlobalOptions) : GlobalOptions :=
  match s with
  | root => { o with root := value }
  | config => { o with config := value }
  | patches => { o with patches := value }
  | baseDir => { o with baseDir := value }
  | vendorPrefix => { o with vendorPrefix := value }

end Setting

/-! ## Options without a value -/

/-- An option that takes no value. -/
inductive Switch where
  | offline
  | verbose
  | dryRun
  | help
  | version
deriving DecidableEq, Repr

namespace Switch

/-- Whether an option can stand behind a command, or in front of it. -/
def belongsTo (s : Switch) (place : Option Verb) : Bool :=
  match s with
  | dryRun => place = some .clean
  | version => place = none
  | offline | verbose | help => true

def ofName? : String → Option Switch
  | "offline" => some offline
  | "verbose" => some verbose
  | "dry-run" => some dryRun
  | "help" => some help
  | "version" => some version
  | _ => none

def ofLetter? : Char → Option Switch
  | 'v' => some verbose
  | 'h' => some help
  | 'V' => some version
  | _ => none

end Switch

end Retrofit

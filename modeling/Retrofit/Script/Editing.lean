import Retrofit.Script.SourceTree
import Retrofit.Text.Blank
import Retrofit.Text.Quoted

/-!
# Editing scripts

**Snippets.** The statements of a snippet are taken without the gaps around them; a snippet must
have at least one. Snippets are read by the parser that has read the script.

**Edits.** `perform` carries out one edit on a script in place, and `apply` is the script that it
makes. Only the text that an edit names changes: an inserted statement gets a gap of its own, a
replaced one keeps the gap in front of it.

**Substitutions.** They act on the snippet one after the other, and always copy from the script as
it was before the edit.

**Failures.** What an edit has changed before it fails is not taken back. So an edit looks for all
that it needs first and changes the script last.
-/

namespace Retrofit.Script

inductive EditError where
  /-- The source is no script. -/
  | malformed
  | emptySnippet (snippet : String)
  | notFound (address : Address)
  | notAStatement (address : Address)
  /-- A statement would be copied to a list, or a list to a statement. -/
  | mismatch (target source : Address)
deriving DecidableEq, Repr

def EditError.message : EditError → String
  | .malformed => "Syntax error"
  | .emptySnippet snippet => "Snippet contains no statements: " ++ Text.quote snippet
  | .notFound address => "Path " ++ address.text ++ " does not address a node"
  | .notAStatement address => "Path " ++ address.text ++ " must address a statement"
  | .mismatch target source =>
    "Cannot copy " ++ source.text ++ " into " ++ target.text
      ++ ": one is a statement, the other a list"

def ofText (parser : Parser) (text : String) : Except EditError Block :=
  match parse? parser text with
  | some script => .ok script
  | none => .error .malformed

/-- The block of the given statements without gaps. -/
def Block.ofStatements (statements : List Statement) : Block :=
  statements.foldr (.next "" · ·) (.done "")

/-- The statements of a snippet without the gaps around them, at least one. -/
def snippet (parser : Parser) (text : String) : Except EditError (List Statement) := do
  let script ← ofText parser text
  match script.statements with
  | [] => .error (.emptySnippet text)
  | statements => .ok statements

/-! ## Single edits -/

/-- The gaps of an inserted first statement and of the old one behind it. The white space in front
of the old statement is used for both; comments stay with the old one and begin on a new line. -/
def openGap (gap : String) : String × String :=
  let (lead, comments) := Text.splitLead gap.toList
  if comments.isEmpty then (gap, gap)
  else if lead.contains '\n' then (String.ofList lead, gap)
  else (String.ofList lead, "\n" ++ gap)

/-- The list with a statement in front. -/
def Block.unshift (added : Statement) : Block → Block
  | .done trailing => .next "\n" added (.done trailing)
  | .next gap statement rest =>
    .next (openGap gap).1 added (.next (openGap gap).2 statement rest)

/-! ## Edits in place -/

/-- An action on a script in place. It may fail, and what it has changed by then stays changed. -/
abbrev Editing (α : Type) := ExceptT EditError (StateM Block) α

namespace Editing

variable {α : Type}

/-- The result of an action on a script, and the script that it leaves. -/
def runOn (action : Editing α) (script : Block) : Except EditError α × Block :=
  action.run.run script

/-- What was found, or an error. -/
def require (error : EditError) : Option α → Editing α
  | none => throw error
  | some value => pure value

/-- What a search of the script finds at an address. -/
def look (found? : Address → Block → Option α) (address : Address) : Editing α := do
  require (.notFound address) (found? address (← get))

def change (changed? : Address → Block → Option Block) (address : Address) : Editing Unit := do
  set (← look changed? address)

end Editing

open Editing

/-- The snippet into which a node of the script has been copied. -/
def substitute (s : Substitution) (snippet : Block) : Editing Block :=
  if s.target.isStatement != s.source.isStatement then throw (.mismatch s.target s.source)
  else if s.source.isStatement then do
    let node ← look Block.statementAt? s.source
    require (.notFound s.target) (snippet.changeStatement? (fun _ => some node) s.target)
  else do
    let node ← look Block.list? s.source
    require (.notFound s.target) (snippet.changeList? (fun _ => some node) s.target)

/-- The snippet into which nodes of the script have been copied one after the other. -/
def substituteAll : List Substitution → Block → Editing Block
  | [], snippet => pure snippet
  | s :: rest, snippet => do substituteAll rest (← substitute s snippet)

/-- Carries out an edit. -/
def perform (parser : Parser) : Edit → Editing Unit
  | .unshift list text => do
    let added ← require (.emptySnippet text) (← snippet parser text).head?
    change (Block.changeList? fun block => some (block.unshift added)) list
  | .push text => do
    let added ← snippet parser text
    modify (·.append added)
  | .assign address text substitutions =>
    if !address.isStatement then throw (.notAStatement address)
    else do
      let edited ← substituteAll substitutions (.ofStatements (← snippet parser text))
      let node ← require (.emptySnippet text) edited.head?
      change (Block.changeStatement? fun _ => some node) address

def apply (parser : Parser) (edit : Edit) (script : Block) : Except EditError Block :=
  match (perform parser edit).runOn script with
  | (.ok (), edited) => .ok edited
  | (.error error, _) => .error error

/-- The script after edits one after the other. -/
def applyAll (parser : Parser) : List Edit → Block → Except EditError Block
  | [], script => .ok script
  | edit :: rest, script => do applyAll parser rest (← apply parser edit script)

end Retrofit.Script

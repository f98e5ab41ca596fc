import Retrofit.Script.Lexeme

/-!
# Semicolons that are not written

A statement may end without a semicolon: in front of a closing brace, at the end of the script, and
at a line break unless the next line can only carry the statement on. `semicolonHere` decides this
for a place behind a lexeme.

**Comments.** A line comment behind the lexeme, or a block comment with a line break in it, ends
the statement at once where `commentEnds` holds. Elsewhere it belongs to the statement and the
question comes up again behind it. Behind a line break comments are passed over.
-/

namespace Retrofit.Script

/-- The blank characters that count between a lexeme and a line break. -/
def isPlainBlank (c : Char) : Bool :=
  c == ' ' || (9 ≤ c.toNat && c.toNat ≤ 13)

/-- Where a search through white space and comments is: between comments, behind a slash, in a line
comment, in a block comment, or behind a star in one. -/
inductive Spot where
  | between
  | slash
  | line
  | block
  | star
deriving DecidableEq, Repr

/-- The text behind white space and comments, unless a lone slash stands in the way. -/
def behindComments? : Spot → List Char → Option (List Char)
  | .slash, [] => none
  | _, [] => some []
  | .between, c :: cs =>
    if isPlainBlank c then behindComments? .between cs
    else if c == '/' then behindComments? .slash cs
    else some (c :: cs)
  | .slash, c :: cs =>
    if c == '/' then behindComments? .line cs
    else if c == '*' then behindComments? .block cs
    else none
  | .line, c :: cs =>
    if c == '\n' then behindComments? .between cs
    else if isLineEnd c || c == '\x00' then some (c :: cs)
    else behindComments? .line cs
  | .block, c :: cs =>
    if c == '*' then behindComments? .star cs
    else if c == '\x00' then some (c :: cs)
    else behindComments? .block cs
  | .star, c :: cs =>
    if c == '/' then behindComments? .between cs
    else if c == '*' then behindComments? .star cs
    else if c == '\x00' then some (c :: cs)
    else behindComments? .block cs

/-- Whether a text begins with an ASCII letter. -/
def startsWithLetter (cs : List Char) : Bool :=
  (cs.head?.map Char.isAlpha).getD false

/-- Whether a line that begins with `cs` starts a new statement. -/
def startsStatement (cs : List Char) : Bool :=
  match cs with
  | [] => true
  | '.' :: rest => (rest.head?.map Char.isDigit).getD false
  | '+' :: rest => rest.head? == some '+'
  | '-' :: rest => rest.head? == some '-'
  | '!' :: rest => rest.head? != some '='
  | 'i' :: 'n' :: rest =>
    startsWithLetter rest
      && ((Text.strip? "stanceof".toList rest).map startsWithLetter).getD true
  | c :: _ => !"`,:;*%><=[(?^|&/".toList.contains c

/-- Whether a new statement starts behind a line break. -/
def startsBehindBreak (cs : List Char) : Bool :=
  ((behindComments? .between cs).map startsStatement).getD false

/-- The decision at a character that is neither blank nor a slash. -/
def endsAt (c : Char) (cs : List Char) : Bool :=
  c == '}' || (isLineEnd c && startsBehindBreak cs)

/-- The decision at what follows comments that end the line. -/
def endsBehindComment (commentEnds : Bool) (cs : List Char) : Bool :=
  match cs with
  | [] => commentEnds
  | c :: rest => commentEnds && c != ',' && c != '=' || endsAt c rest

/-- Whether a statement ends in front of a text, from a spot on. `broken` holds if a block comment
had a line break in it, `outer` as long as no comment was passed. -/
def semicolonFrom (commentEnds : Bool) (broken outer : Bool) : Spot → List Char → Bool
  | .between, [] => outer || commentEnds
  | .slash, [] => false
  | _, [] => commentEnds
  | .between, c :: cs =>
    if c == '/' then semicolonFrom commentEnds broken outer .slash cs
    else if outer then
      c == '\x00' || endsAt c cs || (isPlainBlank c && c != '\n'
        && semicolonFrom commentEnds broken outer .between cs)
    else if isPlainBlank c then semicolonFrom commentEnds broken outer .between cs
    else endsBehindComment commentEnds (c :: cs)
  | .slash, c :: cs =>
    if c == '/' then semicolonFrom commentEnds broken false .line cs
    else if c == '*' then semicolonFrom commentEnds broken false .block cs
    else false
  | .line, c :: cs =>
    if c == '\n' then semicolonFrom commentEnds broken false .between cs
    else if isLineEnd c || c == '\x00' then endsBehindComment commentEnds (c :: cs)
    else semicolonFrom commentEnds broken false .line cs
  | .block, c :: cs =>
    if c == '*' then semicolonFrom commentEnds broken false .star cs
    else if c == '\x00' then endsBehindComment commentEnds (c :: cs)
    else semicolonFrom commentEnds (broken || isLineEnd c) false .block cs
  | .star, c :: cs =>
    if c == '*' then semicolonFrom commentEnds broken false .star cs
    else if c == '\x00' then endsBehindComment commentEnds (c :: cs)
    else if c != '/' then semicolonFrom commentEnds (broken || isLineEnd c) false .block cs
    else if cs.head? == some '/' then semicolonFrom commentEnds broken false .between cs
    else if broken && commentEnds && cs.head? != some ',' && cs.head? != some '=' then true
    else !cs.isEmpty && cs.head? != some '\x00' && semicolonFrom commentEnds broken true .between cs

/-- Whether a statement ends in front of a text without a semicolon. -/
def semicolonHere (commentEnds : Bool) (cs : List Char) : Bool :=
  semicolonFrom commentEnds false true .between cs

end Retrofit.Script

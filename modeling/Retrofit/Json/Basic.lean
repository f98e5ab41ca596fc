import Retrofit.Dictionary
import Retrofit.Decimal.Shortest

/-!
# JSON values

**The type.** An object is a dictionary: each key once, keys in ascending order. A number is a
whole number of 64 bits, signed or not, or a number of the binary format, kept as its bits.

**Printing.** `Json.text` writes a value without any white space, `Json.pretty` with two blanks
of indentation for each level.
-/

namespace Retrofit

/-- A number in a document. -/
inductive Number where
  | whole (value : Int)
  | real (bits : UInt64)
deriving DecidableEq, Repr

/-- A JSON value. -/
inductive Json where
  | null
  | bool (value : Bool)
  | number (value : Number)
  | string (text : String)
  | array (items : List Json)
  | object (members : List (String × Json))
deriving Repr

def Number.text : Number → String
  | .whole n => toString n
  | .real bits => Decimal.text bits

namespace Json

/-- The value with text fields only. -/
def ofTexts (texts : Dictionary String) : Json :=
  .object (texts.map fun (k, v) => (k, .string v))

def ofTextList (texts : List String) : Json :=
  .array (texts.map .string)

/-! ## Printing -/

/-- A digit of the hexadecimal system. -/
def hexDigit (n : Nat) : Char :=
  Char.ofNat (if n < 10 then '0'.toNat + n else 'a'.toNat + (n - 10))

/-- How a character is written inside a string. -/
def escape (c : Char) : List Char :=
  if c = '"' then ['\\', '"']
  else if c = '\\' then ['\\', '\\']
  else if c = '\n' then ['\\', 'n']
  else if c = '\r' then ['\\', 'r']
  else if c = '\t' then ['\\', 't']
  else if c.toNat = 8 then ['\\', 'b']
  else if c.toNat = 12 then ['\\', 'f']
  else if c.toNat < 32 then
    ['\\', 'u', '0', '0', hexDigit (c.toNat / 16), hexDigit (c.toNat % 16)]
  else [c]

def quoted (text : String) : List Char :=
  '"' :: (text.toList.flatMap escape ++ ['"'])

mutual

/-- The characters of a value without white space. -/
def chars : Json → List Char
  | .null => "null".toList
  | .bool true => "true".toList
  | .bool false => "false".toList
  | .number n => n.text.toList
  | .string s => quoted s
  | .array items => '[' :: itemChars items ++ [']']
  | .object members => '{' :: memberChars members ++ ['}']

/-- The items of an array with commas between them. -/
def itemChars : List Json → List Char
  | [] => []
  | [v] => chars v
  | v :: w :: rest => chars v ++ ',' :: itemChars (w :: rest)

/-- The members of an object with commas between them. -/
def memberChars : List (String × Json) → List Char
  | [] => []
  | [(k, v)] => quoted k ++ ':' :: chars v
  | (k, v) :: m :: rest => quoted k ++ ':' :: chars v ++ ',' :: memberChars (m :: rest)

end

/-- A value without white space. -/
def text (v : Json) : String :=
  String.ofList (chars v)

/-- A line break and the indentation of a level. -/
def newline (level : Nat) : List Char :=
  '\n' :: List.replicate (2 * level) ' '

mutual

/-- The characters of a value whose items and members stand on lines of their own. -/
def prettyChars (level : Nat) : Json → List Char
  | .array [] => ['[', ']']
  | .array items => '[' :: prettyItems (level + 1) items ++ newline level ++ [']']
  | .object [] => ['{', '}']
  | .object members => '{' :: prettyMembers (level + 1) members ++ newline level ++ ['}']
  | v => chars v

/-- Items on lines of their own. -/
def prettyItems (level : Nat) : List Json → List Char
  | [] => []
  | [v] => newline level ++ prettyChars level v
  | v :: w :: rest => newline level ++ prettyChars level v ++ ',' :: prettyItems level (w :: rest)

/-- Members on lines of their own. -/
def prettyMembers (level : Nat) : List (String × Json) → List Char
  | [] => []
  | [(k, v)] => newline level ++ quoted k ++ ": ".toList ++ prettyChars level v
  | (k, v) :: m :: rest =>
    newline level ++ quoted k ++ ": ".toList ++ prettyChars level v
      ++ ',' :: prettyMembers level (m :: rest)

end

/-- A value with its items and members on lines of their own. -/
def pretty (v : Json) : String :=
  String.ofList (prettyChars 0 v)

end Json

end Retrofit

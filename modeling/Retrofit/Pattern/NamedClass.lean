import Retrofit.Pattern.Basic
import Retrofit.Unicode.Script

/-!
# Classes with names

**Properties.** `\p` names a general category, a script or one of the properties Alphabetic,
White_Space, Uppercase and Lowercase. Case, spaces, hyphens, underscores and a leading `is` do not
matter. Every other property of Unicode is unknown here (`\p{ID_Start}`, `\p{ID_Continue}`,
`\p{Emoji}`, `\p{Hex_Digit}`, ages, script extensions, and where graphemes, words and sentences
break), and a pattern that names one is refused.

**ASCII classes.** `[:name:]` between brackets names one of the classes of ASCII characters.
-/

namespace Retrofit.CharClass

/-! ## Properties -/

/-- The form in which names of properties are compared. -/
def plainName (name : String) : String :=
  let cs := match name.toList with
    | i :: s :: cs => if i.toLower = 'i' && s.toLower = 's' then cs else i :: s :: cs
    | cs => cs
  let plain := (cs.filter fun c => c.toNat < 128 && !" _-".toList.contains c).map Char.toLower
  if plain = ['c'] && cs.length + 2 = name.length then "isc" else String.ofList plain

/-- The names of the general categories, each with the letters of the category. -/
def categoryNames : List (String × String) := [
  ("c", "C"), ("other", "C"), ("cc", "Cc"), ("cntrl", "Cc"), ("control", "Cc"), ("cf", "Cf"),
  ("format", "Cf"), ("cn", "Cn"), ("unassigned", "Cn"), ("co", "Co"), ("privateuse", "Co"),
  ("l", "L"), ("letter", "L"), ("ll", "Ll"), ("lowercaseletter", "Ll"), ("lm", "Lm"),
  ("modifierletter", "Lm"), ("lo", "Lo"), ("otherletter", "Lo"), ("lt", "Lt"),
  ("titlecaseletter", "Lt"), ("lu", "Lu"), ("uppercaseletter", "Lu"), ("m", "M"), ("mark", "M"),
  ("combiningmark", "M"), ("mc", "Mc"), ("spacingmark", "Mc"), ("me", "Me"),
  ("enclosingmark", "Me"), ("mn", "Mn"), ("nonspacingmark", "Mn"), ("n", "N"), ("number", "N"),
  ("nd", "Nd"), ("decimalnumber", "Nd"), ("digit", "Nd"), ("nl", "Nl"), ("letternumber", "Nl"),
  ("no", "No"), ("othernumber", "No"), ("p", "P"), ("punctuation", "P"), ("punct", "P"),
  ("pc", "Pc"), ("connectorpunctuation", "Pc"), ("pd", "Pd"), ("dashpunctuation", "Pd"),
  ("pe", "Pe"), ("closepunctuation", "Pe"), ("pf", "Pf"), ("finalpunctuation", "Pf"),
  ("pi", "Pi"), ("initialpunctuation", "Pi"), ("po", "Po"), ("otherpunctuation", "Po"),
  ("ps", "Ps"), ("openpunctuation", "Ps"), ("s", "S"), ("symbol", "S"), ("sc", "Sc"),
  ("currencysymbol", "Sc"), ("sk", "Sk"), ("modifiersymbol", "Sk"), ("sm", "Sm"),
  ("mathsymbol", "Sm"), ("so", "So"), ("othersymbol", "So"), ("z", "Z"), ("separator", "Z"),
  ("zl", "Zl"), ("lineseparator", "Zl"), ("zp", "Zp"), ("paragraphseparator", "Zp"),
  ("zs", "Zs"), ("spaceseparator", "Zs")]

/-- The characters of the general category with a plain name. -/
def ofCategory? (name : String) : Option CharClass :=
  if name = "any" then some all
  else if name = "ascii" then some (range '\x00' '\x7f')
  else if name = "assigned" then some (complement (category "Cn"))
  else if name = "lc" || name = "casedletter" then
    some (unionAll [category "Lu", category "Ll", category "Lt"])
  else (categoryNames.find? (·.1 == name)).map fun (_, letters) => category letters

/-- The characters of the script with a plain name. -/
def ofScript? (name : String) : Option CharClass :=
  let script := Unicode.scriptTexts.find? fun s => plainName s.1 == name || plainName s.2.1 == name
  script.map fun s => listed (Unicode.Ranges.ofLines s.2.2)

/-- The capital letters outside the category of capital letters. -/
def moreCapitals : CharClass :=
  listed (Unicode.Ranges.ofText "2160-216f 24b6-24cf 1f130-1f149 1f150-1f169 1f170-1f189")

/-- The small letters outside the category of small letters. -/
def moreSmalls : CharClass :=
  listed (Unicode.Ranges.ofLines [
    "aa ba 2b0-2b8 2c0-2c1 2e0-2e4 345 37a 10fc 1d2c-1d6a 1d78 1d9b-1dbf 2071 207f 2090-209c",
    "2170-217f 24d0-24e9 2c7c-2c7d a69c-a69d a770 a7f2-a7f4 a7f8-a7f9 ab5c-ab5f ab69 10780",
    "10783-10785 10787-107b0 107b2-107ba 1e030-1e06d"])

/-- The characters with a property that has a plain name. -/
def ofProperty? (name : String) : Option CharClass :=
  match name with
  | "alphabetic" | "alpha" => some alphabetic
  | "whitespace" | "wspace" | "space" => some space
  | "uppercase" | "upper" => some (union (category "Lu") moreCapitals)
  | "lowercase" | "lower" => some (union (category "Ll") moreSmalls)
  | _ => none

/-- The characters of the property, category or script with a name. -/
def named? (name : String) : Option CharClass :=
  let name := plainName name
  (ofProperty? name).or ((ofCategory? name).or (ofScript? name))

def valued? (property value : String) : Option CharClass :=
  match plainName property with
  | "gc" | "generalcategory" => ofCategory? (plainName value)
  | "sc" | "script" => ofScript? (plainName value)
  | _ => none

/-! ## ASCII classes -/

def ascii? (name : String) : Option CharClass :=
  let letters := union (range 'a' 'z') (range 'A' 'Z')
  let digits := range '0' '9'
  match name with
  | "alnum" => some (union letters digits)
  | "alpha" => some letters
  | "ascii" => some (range '\x00' '\x7f')
  | "blank" => some (union (single ' ') (single '\t'))
  | "cntrl" => some (union (range '\x00' '\x1f') (single '\x7f'))
  | "digit" => some digits
  | "graph" => some (range '!' '~')
  | "lower" => some (range 'a' 'z')
  | "print" => some (range ' ' '~')
  | "punct" => some (unionAll [range '!' '/', range ':' '@', range '[' '`', range '\x7b' '~'])
  | "space" => some (union (range '\t' '\r') (single ' '))
  | "upper" => some (range 'A' 'Z')
  | "word" => some asciiWord
  | "xdigit" => some (unionAll [digits, range 'A' 'F', range 'a' 'f'])
  | _ => none

end Retrofit.CharClass

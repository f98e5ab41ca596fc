import Retrofit.Unicode.Class

/-!
# Quoted texts

Messages show a text between quotes. A backslash, a quote and the common control characters are
written as a letter behind a backslash; what cannot be seen, and what would join the character in
front of it, by its number in hexadecimal.
-/

namespace Retrofit.Text

/-- How a character is shown between quotes. -/
def shown (c : Char) : List Char :=
  if c = '\x00' then ['\\', '0']
  else if c = '\t' then ['\\', 't']
  else if c = '\r' then ['\\', 'r']
  else if c = '\n' then ['\\', 'n']
  else if c = '"' then ['\\', '"']
  else if c = '\\' then ['\\', '\\']
  else if 32 ≤ c.toNat ∧ c.toNat < 127 then [c]
  else if Unicode.isExtending c || Unicode.isUnseen c then
    '\\' :: 'u' :: '\x7b' :: (Nat.toDigits 16 c.toNat ++ ['\x7d'])
  else [c]

def quote (text : String) : String :=
  String.ofList ('"' :: (text.toList.flatMap shown ++ ['"']))

end Retrofit.Text

/-!
# UTF-8

**Decoding.** `units` divides bytes into characters and stretches that no character can begin with.
Such a stretch ends where the next byte could not continue the character that it began. A text is
decoded strictly (`decode?`), or with a replacement character for every such stretch (`decode`).

**Encoding.** `encode` writes a text as bytes.
-/

namespace Retrofit.Text

/-- A byte of the second and later places. -/
def isTail (b : UInt8) : Bool :=
  0x80 ≤ b && b ≤ 0xBF

/-- The number of bytes of the character that a byte begins, beyond the first. -/
def tailLength? (a : UInt8) : Option Nat :=
  if 0xC2 ≤ a && a ≤ 0xDF then some 1
  else if 0xE0 ≤ a && a ≤ 0xEF then some 2
  else if 0xF0 ≤ a && a ≤ 0xF4 then some 3
  else none

/-- Whether a byte may stand behind the first byte of a character. This excludes longer forms than
needed, surrogates and numbers that are too large. -/
def mayFollow (a b : UInt8) : Bool :=
  if a = 0xE0 then 0xA0 ≤ b && b ≤ 0xBF
  else if a = 0xED then 0x80 ≤ b && b ≤ 0x9F
  else if a = 0xF0 then 0x90 ≤ b && b ≤ 0xBF
  else if a = 0xF4 then 0x80 ≤ b && b ≤ 0x8F
  else isTail b

/-- The character of the given bytes. -/
def assemble (a : UInt8) (tail : List UInt8) : Char :=
  let lead := a.toNat % (if tail.length = 1 then 32 else if tail.length = 2 then 16 else 8)
  Char.ofNat (tail.foldl (fun n b => n * 64 + b.toNat % 64) lead)

/-- The characters in bytes, and none for each stretch that is no character. -/
def units : List UInt8 → List (Option Char)
  | [] => []
  | a :: rest =>
    if a < 0x80 then some (Char.ofNat a.toNat) :: units rest
    else match tailLength? a with
      | none => none :: units rest
      | some n =>
        match rest with
        | [] => [none]
        | b :: rest₁ =>
          if !mayFollow a b then none :: units (b :: rest₁)
          else if n = 1 then some (assemble a [b]) :: units rest₁
          else match rest₁ with
            | [] => [none]
            | c :: rest₂ =>
              if !isTail c then none :: units (c :: rest₂)
              else if n = 2 then some (assemble a [b, c]) :: units rest₂
              else match rest₂ with
                | [] => [none]
                | d :: rest₃ =>
                  if !isTail d then none :: units (d :: rest₃)
                  else some (assemble a [b, c, d]) :: units rest₃

def decode? (bytes : List UInt8) : Option String :=
  ((units bytes).mapM id).map String.ofList

/-- The text in bytes, with a replacement character for what is no character. -/
def decode (bytes : List UInt8) : String :=
  String.ofList ((units bytes).map (·.getD '\ufffd'))

def encode (text : String) : List UInt8 :=
  text.toList.flatMap String.utf8EncodeChar

end Retrofit.Text

import Retrofit.Json.Basic

/-!
# JSON documents as far as they can be read

**Drafts.** Reading a document stops at its first mistake. A `Draft` keeps all that stands in
front of it: an array or object ends either at its bracket or with a fault, and a value that
cannot be read is a broken leaf. Members keep their order and repeated keys stay. What expects a
certain shape can therefore walk over a draft in document order and report whatever comes first, a
wrong shape or a fault.

**Unusable values.** A number out of range and a string with an unpaired surrogate are fine as
text but have no value; they matter only where their value is asked for.

**Reading.** `Draft.read` is total: `readValue` and its companions take turns on a fuel that the
length of the text bounds.
-/

namespace Retrofit

/-- Why a text is no JSON document: it is wrong at some place, or it ends too early. -/
inductive Fault where
  | malformed
  | truncated
deriving DecidableEq, Repr

/-- A document as far as it can be read. -/
inductive Draft where
  | null
  | bool (value : Bool)
  /-- A number, and no value if it is out of range. -/
  | number (value : Option Number)
  /-- A string, and no text if a surrogate in it is unpaired. -/
  | string (text : Option String)
  | array (items : List Draft) (fault : Option Fault)
  | object (members : List (Option String × Draft)) (fault : Option Fault)
  | broken (fault : Fault)
deriving Repr

namespace Draft

/-! ## Equality -/

-- Equality is not derived for a type that occurs in lists of itself.
mutual

/-- Whether two drafts are equal. -/
def same : Draft → Draft → Bool
  | .null, .null => true
  | .bool b, .bool b' => b == b'
  | .number n, .number n' => n == n'
  | .string s, .string s' => s == s'
  | .array items fault, .array items' fault' => sameItems items items' && fault == fault'
  | .object members fault, .object members' fault' =>
    sameMembers members members' && fault == fault'
  | .broken fault, .broken fault' => fault == fault'
  | _, _ => false

def sameItems : List Draft → List Draft → Bool
  | [], [] => true
  | d :: items, d' :: items' => same d d' && sameItems items items'
  | _, _ => false

def sameMembers : List (Option String × Draft) → List (Option String × Draft) → Bool
  | [], [] => true
  | (k, d) :: members, (k', d') :: members' =>
    k == k' && same d d' && sameMembers members members'
  | _, _ => false

end

mutual

theorem same_iff : (d : Draft) → ∀ e : Draft, same d e = true ↔ d = e
  | .null, e => by cases e <;> simp [same]
  | .bool _, e => by cases e <;> simp [same]
  | .number _, e => by cases e <;> simp [same]
  | .string _, e => by cases e <;> simp [same]
  | .array items _, e => by cases e <;> simp [same, sameItems_iff items]
  | .object members _, e => by cases e <;> simp [same, sameMembers_iff members]
  | .broken _, e => by cases e <;> simp [same]

theorem sameItems_iff : (items : List Draft) → ∀ others,
    sameItems items others = true ↔ items = others
  | [], others => by cases others <;> simp [sameItems]
  | d :: items, others => by cases others <;> simp [sameItems, same_iff d, sameItems_iff items]

theorem sameMembers_iff : (members : List (Option String × Draft)) → ∀ others,
    sameMembers members others = true ↔ members = others
  | [], others => by cases others <;> simp [sameMembers]
  | (k, d) :: members, others => by
    cases others <;> simp [sameMembers, Prod.ext_iff, same_iff d, sameMembers_iff members]

end

instance : DecidableEq Draft := fun d e => decidable_of_iff _ (same_iff d e)

/-- What remains of a text, or why it cannot be read on. -/
abbrev Rest := Except Fault (List Char)

/-- The text behind white space. -/
def skipBlanks : List Char → List Char
  | c :: cs => if c = ' ' ∨ c = '\n' ∨ c = '\t' ∨ c = '\r' then skipBlanks cs else c :: cs
  | [] => []

/-! ## Strings -/

/-- The value of a hexadecimal digit. -/
def hexValue? (c : Char) : Option Nat :=
  if c.isDigit then some (c.toNat - '0'.toNat)
  else if 'a' ≤ c ∧ c ≤ 'f' then some (c.toNat - 'a'.toNat + 10)
  else if 'A' ≤ c ∧ c ≤ 'F' then some (c.toNat - 'A'.toNat + 10)
  else none

/-- The number of bytes of a text in UTF-8. -/
def byteCount (cs : List Char) : Nat :=
  cs.foldl (fun n c => n + c.utf8Size) 0

/-- The number that four hexadecimal digits stand for, and the text behind them. -/
def readHex (cs : List Char) : Except Fault (Nat × List Char) :=
  match cs with
  | a :: b :: c :: d :: rest =>
    match hexValue? a, hexValue? b, hexValue? c, hexValue? d with
    | some a, some b, some c, some d => .ok (((a * 16 + b) * 16 + c) * 16 + d, rest)
    | _, _, _, _ => .error .malformed
  | _ => if byteCount cs < 4 then .error .truncated else .error .malformed

/-- The character behind a backslash, for the escapes of one letter. -/
def shortEscape? (c : Char) : Option Char :=
  if c = '"' ∨ c = '\\' ∨ c = '/' then some c
  else if c = 'b' then some '\x08'
  else if c = 'f' then some '\x0c'
  else if c = 'n' then some '\n'
  else if c = 'r' then some '\r'
  else if c = 't' then some '\t'
  else none

/-- A unit of a string in a document: a character, or half of a surrogate pair. -/
inductive Unit16 where
  | char (c : Char)
  | half (value : Nat)
deriving DecidableEq, Repr

def Unit16.ofNat (n : Nat) : Unit16 :=
  if 0xD800 ≤ n ∧ n ≤ 0xDFFF then .half n else .char (Char.ofNat n)

/-- The units of a string up to its closing quote, and the text behind it. -/
def readUnits : Nat → List Char → Except Fault (List Unit16 × List Char)
  | 0, _ => .error .truncated
  | _ + 1, [] => .error .truncated
  | fuel + 1, c :: cs =>
    if c = '"' then .ok ([], cs)
    else if c.toNat < 32 then .error .malformed
    else if c = '\\' then
      match cs with
      | [] => .error .truncated
      | 'u' :: cs => do
        let (n, cs) ← readHex cs
        let (units, rest) ← readUnits fuel cs
        return (.ofNat n :: units, rest)
      | e :: cs =>
        match shortEscape? e with
        | none => .error .malformed
        | some c => do
          let (units, rest) ← readUnits fuel cs
          return (.char c :: units, rest)
    else do
      let (units, rest) ← readUnits fuel cs
      return (.char c :: units, rest)

/-- The characters of a string; none if half of a pair stands alone. -/
def pairUp? : List Unit16 → Option (List Char)
  | [] => some []
  | .char c :: rest => (pairUp? rest).map (c :: ·)
  | .half hi :: .half lo :: rest =>
    if hi < 0xDC00 ∧ 0xDC00 ≤ lo then
      (pairUp? rest).map (Char.ofNat (0x10000 + (hi - 0xD800) * 0x400 + (lo - 0xDC00)) :: ·)
    else none
  | .half _ :: _ => none

/-- A string behind its opening quote. -/
def readString (cs : List Char) : Except Fault (Option String × List Char) := do
  let (units, rest) ← readUnits (cs.length + 1) cs
  return ((pairUp? units).map String.ofList, rest)

/-! ## Numbers -/

/-- The digits in front of a text and the rest of it. -/
def spanDigits (cs : List Char) : List Char × List Char :=
  (cs.takeWhile Char.isDigit, cs.dropWhile Char.isDigit)

/-- The digits that must come next. -/
def readDigits (cs : List Char) : Except Fault (List Char × List Char) :=
  match spanDigits cs with
  | ([], []) => .error .truncated
  | ([], _ :: _) => .error .malformed
  | found => .ok found

/-- The written parts of a number. -/
structure NumberParts where
  negative : Bool
  whole : List Char
  fraction : List Char
  exponent : Option Int
deriving Repr

/-- The exponent of a number behind its letter. -/
def readExponent (cs : List Char) : Except Fault (Int × List Char) :=
  let value (digits : List Char) : Int :=
    digits.foldl (fun (n : Int) c => n * 10 + (c.toNat - '0'.toNat : Nat)) 0
  match cs with
  | '-' :: cs => (readDigits cs).map fun (digits, rest) => (- value digits, rest)
  | '+' :: cs => (readDigits cs).map fun (digits, rest) => (value digits, rest)
  | cs => (readDigits cs).map fun (digits, rest) => (value digits, rest)

/-- The parts of a number and the text behind it. Its whole part has no leading zero. -/
def readNumber (cs : List Char) : Except Fault (NumberParts × List Char) := do
  let negative := cs.head? == some '-'
  let (whole, cs) ← readDigits (if negative then cs.drop 1 else cs)
  if whole.head? = some '0' ∧ whole ≠ ['0'] then .error .malformed
  else
    let (fraction, cs) ← match cs with
      | '.' :: cs => readDigits cs
      | cs => .ok ([], cs)
    match cs with
    | e :: rest =>
      if e = 'e' ∨ e = 'E' then
        let (exponent, rest) ← readExponent rest
        return (⟨negative, whole, fraction, some exponent⟩, rest)
      else return (⟨negative, whole, fraction, none⟩, cs)
    | [] => return (⟨negative, whole, fraction, none⟩, [])

/-- Digits as a number below 2^64 and the count of digits at the end that did not fit. -/
def significand (digits : List Char) : Nat × Nat :=
  digits.foldl (fun (n, dropped) c =>
    let next := n * 10 + (c.toNat - '0'.toNat)
    if dropped = 0 ∧ next < UInt64.size then (next, 0) else (n, dropped + 1)) (0, 0)

/-- The product of a number and a power of ten in the binary format, one rounding for each factor
up to 10^308; none if it is out of range. -/
def scale? : Nat → Float → Int → Option Float
  | 0, f, _ => some f
  | fuel + 1, f, e =>
    if e.natAbs ≤ 308 then
      if 0 ≤ e then
        let r := f * Float.ofScientific 1 false e.natAbs
        if r.isInf then none else some r
      else some (f / Float.ofScientific 1 false e.natAbs)
    else if f == 0 then some f
    else if 0 ≤ e then none
    else scale? fuel (f / Float.ofScientific 1 false 308) (e + 308)

/-- The value of a number: whole if it is written so and fits in 64 bits, else of the binary
format. -/
def NumberParts.value? (p : NumberParts) : Option Number :=
  let isWhole := p.fraction.isEmpty && p.exponent.isNone
  let (n, dropped) := significand p.whole
  if isWhole ∧ dropped = 0 ∧ ¬ p.negative then some (.whole n)
  else if isWhole ∧ dropped = 0 ∧ n ≠ 0 ∧ n ≤ 1 <<< 63 then some (.whole (-n))
  else
    let (digits, skipped) := significand (p.whole ++ p.fraction)
    -- Digits of the fraction that did not fit are dropped; those of the whole part count as zeros.
    let used := p.whole.length + p.fraction.length - skipped
    let exponent : Int := (p.whole.length : Int) - used + p.exponent.getD 0
    let magnitude := scale? 4 (Float.ofNat digits) exponent
    magnitude.map fun f => .real (if p.negative then -f else f).toBits

/-! ## Values -/

/-- The text behind a given word. -/
def readWord : List Char → List Char → Rest
  | [], cs => .ok cs
  | _ :: _, [] => .error .truncated
  | w :: ws, c :: cs => if w = c then readWord ws cs else .error .malformed

/-- A value without parts that is spelled by a word. -/
def readLiteral (word : String) (value : Draft) (cs : List Char) : Draft × Rest :=
  match readWord word.toList cs with
  | .ok rest => (value, .ok rest)
  | .error f => (.broken f, .error f)

mutual

/-- The value at the start of a text, and the text behind it. -/
def readValue : Nat → List Char → Draft × Rest
  | 0, _ => (.broken .truncated, .error .truncated)
  | fuel + 1, cs =>
    match skipBlanks cs with
    | [] => (.broken .truncated, .error .truncated)
    | '[' :: cs =>
      let (items, fault, rest) := readItems fuel true cs
      (.array items fault, rest)
    | '{' :: cs =>
      let (members, fault, rest) := readMembers fuel true cs
      (.object members fault, rest)
    | '"' :: cs =>
      match readString cs with
      | .ok (text, rest) => (.string text, .ok rest)
      | .error f => (.broken f, .error f)
    | c :: cs =>
      if c = 'n' then readLiteral "null" .null (c :: cs)
      else if c = 't' then readLiteral "true" (.bool true) (c :: cs)
      else if c = 'f' then readLiteral "false" (.bool false) (c :: cs)
      else if c = '-' ∨ c.isDigit then
        match readNumber (c :: cs) with
        | .ok (parts, rest) => (.number parts.value?, .ok rest)
        | .error f => (.broken f, .error f)
      else (.broken .malformed, .error .malformed)

/-- The items of an array up to its bracket; `first` until one item is read. -/
def readItems : Nat → Bool → List Char → List Draft × Option Fault × Rest
  | 0, _, _ => ([], some .truncated, .error .truncated)
  | fuel + 1, first, cs =>
    let stop (f : Fault) : List Draft × Option Fault × Rest := ([], some f, .error f)
    let item (cs : List Char) : List Draft × Option Fault × Rest :=
      match readValue fuel cs with
      | (d, .error f) => ([d], some f, .error f)
      | (d, .ok rest) =>
        let (items, fault, rest) := readItems fuel false rest
        (d :: items, fault, rest)
    match skipBlanks cs with
    | [] => stop .truncated
    | c :: cs =>
      if c = ']' then ([], none, .ok cs)
      else if first then item (c :: cs)
      else if c = ',' then
        match skipBlanks cs with
        | [] => stop .truncated
        | d :: cs => if d = ']' then stop .malformed else item (d :: cs)
      else stop .malformed

/-- The members of an object up to its brace; `first` until one member is read. -/
def readMembers : Nat → Bool → List Char → List (Option String × Draft) × Option Fault × Rest
  | 0, _, _ => ([], some .truncated, .error .truncated)
  | fuel + 1, first, cs =>
    let stop (f : Fault) : List (Option String × Draft) × Option Fault × Rest :=
      ([], some f, .error f)
    let member (cs : List Char) : List (Option String × Draft) × Option Fault × Rest :=
      match cs with
      | '"' :: cs =>
        match readString cs with
        | .error f => stop f
        | .ok (key, cs) =>
          match skipBlanks cs with
          | [] => ([(key, .broken .truncated)], some .truncated, .error .truncated)
          | c :: cs =>
            if c = ':' then
              match readValue fuel cs with
              | (d, .error f) => ([(key, d)], some f, .error f)
              | (d, .ok rest) =>
                let (members, fault, rest) := readMembers fuel false rest
                ((key, d) :: members, fault, rest)
            else ([(key, .broken .malformed)], some .malformed, .error .malformed)
      | _ => stop .malformed
    match skipBlanks cs with
    | [] => stop .truncated
    | c :: cs =>
      if c = '}' then ([], none, .ok cs)
      else if first then member (c :: cs)
      else if c = ',' then
        match skipBlanks cs with
        | [] => stop .truncated
        | d :: cs => member (d :: cs)
      else stop .malformed

end

/-- The document that a text holds, and the fault behind it if more than white space follows. -/
def read (text : String) : Draft × Option Fault :=
  let cs := text.toList
  match readValue (2 * cs.length + 2) cs with
  | (d, .error _) => (d, none)
  | (d, .ok rest) => (d, if skipBlanks rest = [] then none else some .malformed)

/-! ## Drafts of values -/

mutual

def ofJson : Json → Draft
  | .null => .null
  | .bool b => .bool b
  | .number n => .number (some n)
  | .string s => .string (some s)
  | .array items => .array (ofItems items) none
  | .object members => .object (ofMembers members) none

def ofItems : List Json → List Draft
  | [] => []
  | v :: rest => ofJson v :: ofItems rest

def ofMembers : List (String × Json) → List (Option String × Draft)
  | [] => []
  | (k, v) :: rest => (some k, ofJson v) :: ofMembers rest

end

end Draft

end Retrofit

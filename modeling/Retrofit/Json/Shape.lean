import Retrofit.Json.Draft
import Retrofit.Text.Quoted

/-!
# Documents of an expected shape

**Shapes.** A `Shape α` reads a draft as an `α` or says what is wrong with it, whatever comes
first in document order. Shapes are built from those of texts, booleans and indices by lists,
dictionaries and records.

**Records** (`record`). A record is an object with known fields, or an array of the fields in their
order. A field that is not required may be missing; other keys are ignored, their values only have
to be JSON.

**Origins.** Three details depend on where a draft comes from. In a text nothing may be nested
deeper than 127 levels, no field may be repeated, and an array with too many elements is malformed;
in a value and in a buffered part of one such an array has a wrong length.
-/

namespace Retrofit

/-- What is wrong with a document. -/
inductive Flaw where
  | fault (fault : Fault)
  | wrongType (found expected : String)
  | wrongValue (found expected : String)
  | missingField (name : String)
  | duplicateField (name : String)
  | unknownVariant (name : String) (known : List String)
  | wrongLength (length : Nat) (expected : String)
  | noVariant (type : String)
  /-- The parameters of a transform of the given kind are wrong. -/
  | parameters (kind : String) (flaw : Flaw)
deriving DecidableEq, Repr

/-- A name in code quotes. -/
def Flaw.code (name : String) : String :=
  "`" ++ name ++ "`"

def Flaw.message : Flaw → String
  | .fault .malformed => "json syntax error"
  | .fault .truncated => "json unexpected end"
  | .wrongType found expected => "invalid type: " ++ found ++ ", expected " ++ expected
  | .wrongValue found expected => "invalid value: " ++ found ++ ", expected " ++ expected
  | .missingField name => "missing field " ++ code name
  | .duplicateField name => "duplicate field " ++ code name
  | .unknownVariant name known =>
    "unknown variant " ++ code name ++ ", expected one of " ++ ", ".intercalate (known.map code)
  | .wrongLength length expected =>
    "invalid length " ++ toString length ++ ", expected " ++ expected
  | .noVariant type => "data did not match any variant of untagged enum " ++ type
  | .parameters kind flaw => "invalid parameters for '" ++ kind ++ "': " ++ flaw.message

/-- Where a draft comes from. -/
inductive Origin where
  /-- A text in which arrays and objects may still be nested below the given depth. -/
  | text (depth : Nat)
  | value
  /-- A part of a value that was set aside until its type was known. -/
  | buffer
deriving DecidableEq, Repr

namespace Origin

/-- The origin of a whole text. -/
def document : Origin := .text 128

/-- The origin of the parts of an array or object. -/
def enter : Origin → Except Flaw Origin
  | .text depth => if depth ≤ 1 then .error (.fault .malformed) else .ok (.text (depth - 1))
  | o => .ok o

/-- What is wrong if `count` elements are left over when `used` are expected. -/
def surplus (o : Origin) (used count : Nat) : Flaw :=
  match o with
  | .text _ => .fault .malformed
  | .value => .wrongLength (used + count) "fewer elements in array"
  | .buffer =>
    .wrongLength (used + count)
      (if used = 1 then "1 element in sequence" else toString used ++ " elements in sequence")

end Origin

/-- A way to read a draft. -/
abbrev Shape (α : Type) := Origin → Draft → Except Flaw α

namespace Shape

variable {α : Type}

/-- What a draft holds, in the words of messages. -/
def describe : Draft → Except Flaw String
  | .null => .ok "null"
  | .bool b => .ok ("boolean " ++ Flaw.code (if b then "true" else "false"))
  | .number none => .error (.fault .malformed)
  | .number (some (.whole n)) => .ok ("integer " ++ Flaw.code (toString n))
  | .number (some (.real bits)) => .ok ("floating point " ++ Flaw.code (Decimal.text bits))
  | .string none => .error (.fault .malformed)
  | .string (some s) => .ok ("string " ++ Text.quote s)
  | .array _ _ => .ok "sequence"
  | .object _ _ => .ok "map"
  | .broken f => .error (.fault f)

/-- The draft is not of the expected type. -/
def mismatch (expected : String) (d : Draft) : Except Flaw α := do
  .error (.wrongType (← describe d) expected)

/-- An array or object must end at its bracket. -/
def atEnd : Option Fault → Except Flaw Unit
  | none => .ok ()
  | some f => .error (.fault f)

/-- The key of a member as a text. -/
def key : Option String → Except Flaw String
  | some k => .ok k
  | none => .error (.fault .malformed)

/-! ## Simple shapes -/

def text : Shape String
  | _, .string (some s) => .ok s
  | _, d => mismatch "a string" d

/-- A truth value. -/
def bool : Shape Bool
  | _, .bool b => .ok b
  | _, d => mismatch "a boolean" d

/-- An index: a whole number from 0 up. -/
def index : Shape Nat
  | _, .number (some (.whole (.ofNat n))) => .ok n
  | _, .number (some (.whole (.negSucc n))) =>
    .error (.wrongValue ("integer " ++ Flaw.code (toString (Int.negSucc n))) "usize")
  | _, d => mismatch "usize" d

def list (item : Shape α) : Shape (List α)
  | o, .array items fault => do
    let o ← o.enter
    let read ← items.mapM (item o)
    atEnd fault
    return read
  | _, d => mismatch "a sequence" d

/-- Something, or null for nothing. -/
def optional (shape : Shape α) : Shape (Option α)
  | _, .null => .ok none
  | o, d => (shape o d).map some

/-- The members of an object, each by the shape that its key asks for, in document order. -/
def members (value : String → Shape α) (o : Origin) :
    List (Option String × Draft) → Except Flaw (List (String × α))
  | [] => .ok []
  | (k, d) :: rest => do
    let k ← key k
    let v ← value k o d
    return (k, v) :: (← members value o rest)

/-- An object with any keys, in document order; `expected` says what it stands for. -/
def pairs (expected : String) (value : String → Shape α) : Shape (List (String × α))
  | o, .object found fault => do
    let read ← members value (← o.enter) found
    atEnd fault
    return read
  | _, d => mismatch expected d

/-- An object with values of one shape under any keys. -/
def dictionary (value : Shape α) : Shape (Dictionary α) := fun o d =>
  (pairs "a map" (fun _ => value) o d).map Dictionary.ofList

/-! ## Any value -/

mutual

/-- Values that are ignored have to be JSON all the same. -/
def skip : Draft → Except Flaw Unit
  | .array items fault => do skipItems items; atEnd fault
  | .object found fault => do skipMembers found; atEnd fault
  | .broken f => .error (.fault f)
  | _ => .ok ()

def skipItems : List Draft → Except Flaw Unit
  | [] => .ok ()
  | d :: rest => do skip d; skipItems rest

def skipMembers : List (Option String × Draft) → Except Flaw Unit
  | [] => .ok ()
  | (_, d) :: rest => do skip d; skipMembers rest

end

mutual

/-- Any value. -/
def json (o : Origin) : Draft → Except Flaw Json
  | .null => .ok .null
  | .bool b => .ok (.bool b)
  | .number (some n) => .ok (.number n)
  | .number none => .error (.fault .malformed)
  | .string (some s) => .ok (.string s)
  | .string none => .error (.fault .malformed)
  | .array items fault => do
    let read ← jsonItems (← o.enter) items
    atEnd fault
    return .array read
  | .object found fault => do
    let read ← jsonMembers (← o.enter) found
    atEnd fault
    return .object (Dictionary.ofList read)
  | .broken f => .error (.fault f)

/-- Items of any kind. -/
def jsonItems (o : Origin) : List Draft → Except Flaw (List Json)
  | [] => .ok []
  | d :: rest => do
    let v ← json o d
    return v :: (← jsonItems o rest)

/-- Members of any kind. -/
def jsonMembers (o : Origin) : List (Option String × Draft) → Except Flaw (List (String × Json))
  | [] => .ok []
  | (k, d) :: rest => do
    let k ← key k
    let v ← json o d
    return (k, v) :: (← jsonMembers o rest)

end

/-! ## Records -/

/-- A field of a record: its name, whether it must be there, and how its value changes the
record. -/
structure Field (α : Type) where
  name : String
  required : Bool
  read : Origin → Draft → α → Except Flaw α

def Field.needed {α β : Type} (name : String) (shape : Shape β) (set : β → α → α) : Field α :=
  ⟨name, true, fun o d r => (shape o d).map (set · r)⟩

/-- A field that keeps its default if it is not there. -/
def Field.given {α β : Type} (name : String) (shape : Shape β) (set : β → α → α) : Field α :=
  ⟨name, false, fun o d r => (shape o d).map (set · r)⟩

/-- The members of an object as fields of a record, with the names of the fields found so far. -/
def fieldsByName (fields : List (Field α)) (o : Origin) :
    List (Option String × Draft) → List String → α → Except Flaw (List String × α)
  | [], found, r => .ok (found, r)
  | (k, d) :: rest, found, r => do
    let k ← key k
    match fields.find? (·.name == k) with
    | none =>
      skip d
      fieldsByName fields o rest found r
    | some field =>
      if k ∈ found then .error (.duplicateField k)
      else
        let r ← field.read o d r
        fieldsByName fields o rest (k :: found) r

/-- The first required field that was not found is missing. -/
def checkFields (fields : List (Field α)) (found : List String) : Except Flaw Unit :=
  match fields.find? fun f => f.required && !found.contains f.name with
  | some f => .error (.missingField f.name)
  | none => .ok ()

/-- The items of an array as fields of a record in their order, with the items left over;
`index` is the number of items read so far. -/
def fieldsByPlace (expected : String) (o : Origin) :
    List (Field α) → Nat → List Draft → Option Fault → α → Except Flaw (List Draft × α)
  | [], _, items, _, r => .ok (items, r)
  | field :: fields, index, d :: items, fault, r => do
    let r ← field.read o d r
    fieldsByPlace expected o fields (index + 1) items fault r
  | field :: fields, index, [], fault, r => do
    atEnd fault
    if field.required then .error (.wrongLength index expected)
    else fieldsByPlace expected o fields (index + 1) [] fault r

/-- The words for a number of elements. -/
def elementCount (n : Nat) : String :=
  if n = 1 then "1 element" else toString n ++ " elements"

/-- The fields of a record, as members or by their place; `type` is the name of the record in
messages. -/
def fields (type : String) (fields : List (Field α)) (initial : α) : Shape α
  | o, .object found fault => do
    let o ← o.enter
    let (names, r) ← fieldsByName fields o found [] initial
    atEnd fault
    checkFields fields names
    return r
  | o, .array items fault => do
    let inner ← o.enter
    let expected := type ++ " with " ++ elementCount fields.length
    let (left, r) ← fieldsByPlace expected inner fields 0 items fault initial
    if left.isEmpty then atEnd fault
    else .error (o.surplus fields.length left.length)
    return r
  | _, d => mismatch type d

def record (name : String) (fieldList : List (Field α)) (initial : α) : Shape α :=
  fields ("struct " ++ name) fieldList initial

/-! ## Whole documents -/

/-- A text of the given shape, with nothing but white space behind it. -/
def ofText (shape : Shape α) (source : String) : Except Flaw α := do
  let (d, fault) := Draft.read source
  let r ← shape .document d
  atEnd fault
  return r

/-- A value of the given shape. -/
def ofJson (shape : Shape α) (v : Json) : Except Flaw α :=
  shape .value (.ofJson v)

end Shape

end Retrofit

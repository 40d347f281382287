import ElementAgent.MessagePack.Reader

/-!
# Shapes of values

A `Shape` says how values of a type are read: from a MessagePack value, or from a
single byte where a byte string stands for a list of small numbers. The shapes
here are numbers within bounds, texts, nullable values and records.

A record is read from a map (fields by name or index, in any order, unknown
ones skipped), from an array (fields by position) or from a byte string (one
byte per field). While it is read it is a draft `σ`, in which every field
may still be missing.

Shapes are read in any monad that reads values one by one.
-/

namespace ElementAgent.MessagePack

/-- How values of a type are read. -/
structure Shape (m : Type → Type) (α : Type) where
  /-- Reads a value inside of which at most `levels` containers may be
  open at once. -/
  read : (levels : Nat) → m α
  /-- Reads a small number. -/
  ofByte : UInt8 → Except Fault α

/-- A marker of a value without length: nil, a truth value or a number. -/
def Marker.isScalar : Marker → Bool
  | .fixPos _ | .null | .no | .yes | .float32 | .float64 | .unsigned _ | .signed
      _ | .fixNeg _ => true
  | _ => false

namespace Token

/-- The number that a token is, marked as signed or not, between two bounds. -/
def integer (wanted : Wanted) (low high : Int) (t : Token) : Except Fault Int :=
  let within (n : Int) : Except Fault Int :=
    if low ≤ n ∧ n ≤ high then .ok n else .error (.wrongValue (.integer n) wanted)
  match t with
  | .unsigned n => within n
  | .signed n => within n
  | t => t.refuse wanted

/-- The text that a token is; a byte string that is UTF-8 counts as one. -/
def text : Token → Except Fault String
  | .str content =>
    match Text.Utf8.decode content with
    | .ok s => .ok s
    | .error e => .error (.utf8 e)
  | .bin content =>
    match Text.Utf8.decode content with
    | .ok s => .ok s
    | .error _ => .error (.wrongValue .bytes .text)
  | t => t.refuse .text

end Token

variable {m : Type → Type} [Monad m] [Scanner m]

/-- Reads a number between two bounds. Only a scalar's marker is looked behind. -/
def readInteger (wanted : Wanted) (low high : Int) : m Int := do
  let marker ← peek
  if marker.isScalar then check ((← leaf).integer wanted low high)
  else fail (.marker marker)

def readText : m String := do check (← leaf).text

namespace Shape

/-- Numbers from 0 to 2^64 - 1. -/
def unsigned64 : Shape m UInt64 where
  read _ := (UInt64.ofNat ·.toNat) <$> readInteger .unsigned64 0 0xffffffffffffffff
  ofByte b := .ok b.toUInt64

/-- Numbers from -2^31 to 2^31 - 1. -/
def signed32 : Shape m Int32 where
  read _ := Int32.ofInt <$> readInteger .signed32 (-0x80000000) 0x7fffffff
  ofByte b := .ok (Int32.ofInt b.toNat)

def text : Shape m String where
  read _ := readText
  ofByte b := .error (.wrongType (.integer b.toNat) .text)

/-- Values of a shape, or nil. -/
def nullable {α : Type} (s : Shape m α) : Shape m (Option α) where
  read levels := do
    if (← peek) = .null then
      let _ ← leaf
      pure none
    else some <$> s.read levels
  ofByte b := .error (.wrongType (.integer b.toNat) .nullable)

end Shape

/-- A field of a record whose draft is `σ`. -/
structure Field (m : Type → Type) (σ : Type) where
  name : String
  /-- The draft has the field. -/
  isSet : σ → Bool
  /-- How a value of the field is read into a draft. -/
  shape : Shape m (σ → σ)

/-- A field by the two sides of its place in the draft. -/
def Field.of {σ α : Type} (name : String) (get : σ → Option α) (set : α → σ → σ)
    (s : Shape m α) :
    Field m σ where
  name := name
  isSet d := (get d).isSome
  shape := ⟨fun levels => set <$> s.read levels, fun b => set <$> s.ofByte b⟩

/-- A record type. -/
structure Record (m : Type → Type) (σ α : Type) where
  name : String
  fields : List (Field m σ)
  blank : σ
  /-- The record of a draft, or its first missing field. -/
  finish : σ → Except Fault α

/-- A field that a record has to have. -/
def required {α : Type} (name : String) : Option α → Except Fault α
  | some a => .ok a
  | none => .error (.missingField name)

namespace Record

variable {σ α : Type}

/-- The field that a token names or whose index it is; none if the record
has no such field. -/
def fieldOf (fields : List (Field m σ)) : Token → Except Fault (Option (Field m σ))
  | .str name | .bin name =>
      .ok (fields.find? fun f => Text.Utf8.encode f.name == name)
  | .unsigned n => .ok fields[n]?
  | t => t.refuse .fieldName

/-- Reads the name or index of a field. -/
def readKey (fields : List (Field m σ)) : m (Option (Field m σ)) := do
  check (fieldOf fields (← leaf))

/-- Reads `n` pairs of a map into a draft. A field may come once. -/
@[specialize]
def readEntries (fields : List (Field m σ)) (levels : Nat) : Nat → σ → m σ
  | 0, d => pure d
  | n + 1, d => do
    match ← readKey fields with
    | none =>
      skip m levels
      readEntries fields levels n d
    | some f =>
      if f.isSet d then fail (.duplicateField f.name)
      else
        let store ← f.shape.read levels
        readEntries fields levels n (store d)

/-- Reads the elements of an array into a draft, one per field; `short` if there
are too few. -/
@[specialize]
def readElements (short : Fault) (levels : Nat) : List (Field m σ) → Nat → σ → m σ
  | [], _, d => pure d
  | _ :: _, 0, _ => fail short
  | f :: fs, n + 1, d => do
    let store ← f.shape.read levels
    readElements short levels fs n (store d)

/-- Reads bytes into a draft, one per field; `short` if there are too few. Bytes
that are left over are ignored. -/
@[specialize]
def ofBytes (short : Fault) : List (Field m σ) → List UInt8 → σ → m σ
  | [], _, d => pure d
  | _ :: _, [], _ => fail short
  | f :: fs, b :: bs, d => do
    used (b :: bs).length
    let store ← check (f.shape.ofByte b)
    ofBytes short fs bs (store d)

/-- Opens a container, if one more may be open. -/
def enter (levels : Nat) (content : Nat → m σ) : m σ :=
  match levels with
  | 0 => fail .tooDeep
  | levels + 1 => inside (content levels)

/-- A token behind which a record is read from a container. -/
def opens : Token → Bool
  | .map _ | .array _ => true
  | _ => false

/-- Reads a draft of a record. -/
@[specialize]
def readDraft (r : Record m σ α) (levels : Nat) : m σ := do
  let count := r.fields.length
  let short (got : Nat) : Fault := .wrongCount got (.fields r.name count)
  match ← token opens with
  | .map n => enter levels fun levels => readEntries r.fields levels n r.blank
  | .array n =>
    enter levels fun levels => do
      let d ← readElements (short n) levels r.fields n r.blank
      if count < n then fail (.length count) else pure d
  | .bin content => ofBytes (short content.length) r.fields content r.blank
  | t => check (t.refuse (.record r.name))

/-- Values of a record type. -/
def shape (r : Record m σ α) : Shape m α where
  read levels := do check (r.finish (← r.readDraft levels))
  ofByte b := .error (.wrongType (.integer b.toNat) (.record r.name))

end Record

end ElementAgent.MessagePack

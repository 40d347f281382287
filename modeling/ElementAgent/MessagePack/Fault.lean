import ElementAgent.MessagePack.Marker
import ElementAgent.Text.Decimal
import ElementAgent.Text.Quoted
import ElementAgent.Text.Utf8

/-!
# Faults of reading

Why bytes could not be read as the value that was wanted, with the
wording of each cause.
-/

namespace ElementAgent.MessagePack

open Text (Binary64)

inductive Found where
  | bool (b : Bool)
  | integer (n : Int)
  | float (x : Binary64)
  | text (s : String)
  | bytes
  | unit
  | sequence
  | map
  | extension
  /-- A bare variant name. -/
  | bareVariant
  deriving DecidableEq

def Found.wording : Found → String
  | .bool b => s!"boolean `{b}`"
  | .integer n => s!"integer `{n}`"
  | .float x => s!"floating point `{x.toText}`"
  | .text s => s!"string {Text.quoted s}"
  | .bytes => "byte array"
  | .unit => "unit value"
  | .sequence => "sequence"
  | .map => "map"
  | .extension => "newtype struct"
  | .bareVariant => "unit variant"

inductive Wanted where
  | unsigned64
  | signed32
  | text
  | nullable
  | variantName
  | variantIndex
  | fieldName
  | variantValue
  /-- A record, by the name of its type. -/
  | record (name : String)
  /-- A record with a number of fields. -/
  | fields (name : String) (count : Nat)
  deriving DecidableEq

def Wanted.wording : Wanted → String
  | .unsigned64 => "u64"
  | .signed32 => "i32"
  | .text => "a string"
  | .nullable => "option"
  | .variantName => "variant identifier"
  | .variantIndex => "variant index 0 <= i < 2"
  | .fieldName => "field identifier"
  | .variantValue => "newtype variant"
  | .record name => s!"struct {name}"
  | .fields name count =>
    if count = 1 then s!"struct {name} with 1 element"
    else s!"struct {name} with {count} elements"

/-- Why reading failed. -/
inductive Fault where
  /-- The bytes end where a value should start. -/
  | noMarker
  /-- The bytes end inside a number or a length. -/
  | cutNumber
  /-- The bytes end inside the content of a text, a byte string or an
  extension. -/
  | cutContent
  /-- The marker starts no value of the wanted kind. -/
  | marker (m : Marker)
  /-- A container has not the length it should have. -/
  | length (expected : Nat)
  /-- A text is not UTF-8. -/
  | utf8 (fault : Text.Utf8.Fault)
  /-- Containers are nested too deeply. -/
  | tooDeep
  | wrongType (found : Found) (wanted : Wanted)
  | wrongValue (found : Found) (wanted : Wanted)
  | wrongCount (got : Nat) (wanted : Wanted)
  | unknownVariant (name : String)
  | duplicateField (name : String)
  | missingField (name : String)
  deriving DecidableEq

def Fault.message : Fault → String
  | .noMarker => "IO error while reading marker: failed to fill whole buffer"
  | .cutNumber => "IO error while reading data: failed to fill whole buffer"
  | .cutContent => "IO error while reading data: unexpected end of file"
  | .marker m => s!"wrong msgpack marker {m.name}"
  | .length expected => s!"array had incorrect length, expected {expected}"
  | .utf8 fault => s!"string found to be invalid utf8: {fault.message}"
  | .tooDeep => "depth limit exceeded"
  | .wrongType found wanted =>
      s!"invalid type: {found.wording}, expected {wanted.wording}"
  | .wrongValue found wanted =>
      s!"invalid value: {found.wording}, expected {wanted.wording}"
  | .wrongCount got wanted => s!"invalid length {got}, expected {wanted.wording}"
  | .unknownVariant name =>
      s!"unknown variant `{name}`, expected `bundle_id` or `health`"
  | .duplicateField name => s!"duplicate field `{name}`"
  | .missingField name => s!"missing field `{name}`"

/-- A fault that more bytes might mend. -/
def Fault.isCut : Fault → Bool
  | .noMarker | .cutNumber | .cutContent => true
  | _ => false

end ElementAgent.MessagePack

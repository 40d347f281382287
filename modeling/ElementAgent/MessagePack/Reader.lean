import ElementAgent.BigEndian
import ElementAgent.MessagePack.Fault

/-!
# Reading values

A `Reader` takes a value off the front of a byte string, or fails. `Token.read`
reads one value without its elements: a scalar as a whole, a container up to its
length. It looks at no byte beyond those it takes.

Values are read one by one, in any monad that tells how it reads a token and what
is inside of containers (`Scanner`). `skip` reads a value with all that it
contains and forgets it.
-/

namespace ElementAgent.MessagePack

open Text (Binary64)

/-- Takes a value off the front of the bytes. -/
abbrev Reader : Type → Type := StateT (List UInt8) (Except Fault)

/-- Takes `n` bytes, or fails with `short` if there are fewer. -/
def takeBytes (short : Fault) (n : Nat) : Reader (List UInt8) := fun bs =>
  let taken := bs.take n
  if taken.length = n then .ok (taken, bs.drop n) else .error short

/-- Takes an unsigned number of `width` bytes. -/
def takeNat (width : Nat) : Reader Nat := ofBigEndian <$> takeBytes .cutNumber width

/-- The number whose two's complement in `width` bytes is `n`. -/
def ofTwosComplement (width n : Nat) : Int :=
  if 2 * n < byteRange width then n else (n : Int) - byteRange width

/-- Takes a signed number of `width` bytes. -/
def takeInt (width : Nat) : Reader Int := ofTwosComplement width <$> takeNat width

/-- Takes the content of a text, a byte string or an extension. -/
def takeContent (n : Nat) : Reader (List UInt8) := takeBytes .cutContent n

def takeMarker : Reader Marker := fun
  | [] => .error .noMarker
  | b :: bs => .ok (Marker.ofByte b, bs)

/-- A value without its elements. -/
inductive Token where
  | nil
  | bool (b : Bool)
  /-- A number marked as unsigned. -/
  | unsigned (n : Nat)
  /-- A number marked as signed. -/
  | signed (n : Int)
  | float (x : Binary64)
  /-- The content of a text, which need not be UTF-8. -/
  | str (content : List UInt8)
  | bin (content : List UInt8)
  /-- An array of `count` values. -/
  | array (count : Nat)
  /-- A map of `count` pairs. -/
  | map (count : Nat)
  /-- An extension: a type byte and `size` bytes. -/
  | ext (size : Nat)
  deriving DecidableEq

namespace Token

/-- Reads the rest of a token whose marker has been read. -/
def ofMarker : Marker → Reader Token
  | .fixPos n => pure (.unsigned n)
  | .fixMap n => pure (.map n)
  | .fixArray n => pure (.array n)
  | .fixStr n => .str <$> takeContent n
  | .null => pure .nil
  | .reserved => throw (.marker .reserved)
  | .no => pure (.bool false)
  | .yes => pure (.bool true)
  | .bin width => do return .bin (← takeContent (← takeNat width))
  | .ext width => .ext <$> takeNat width
  | .float32 => do return .float (.ofBits32 (UInt32.ofNat (← takeNat 4)))
  | .float64 => do return .float (.ofBits (UInt64.ofNat (← takeNat 8)))
  | .unsigned width => .unsigned <$> takeNat width
  | .signed width => .signed <$> takeInt width
  | .fixExt size => pure (.ext size)
  | .str width => do return .str (← takeContent (← takeNat width))
  | .array width => .array <$> takeNat width
  | .map width => .map <$> takeNat width
  | .fixNeg n => pure (.signed n)

def read : Reader Token := do ofMarker (← takeMarker)

/-- How a token is described when something else was wanted. A text has to be
UTF-8 for that. -/
def found : Token → Except Fault Found
  | .nil => .ok .unit
  | .bool b => .ok (.bool b)
  | .unsigned n => .ok (.integer n)
  | .signed n => .ok (.integer n)
  | .float x => .ok (.float x)
  | .str content =>
    match Text.Utf8.decode content with
    | .ok s => .ok (.text s)
    | .error e => .error (.utf8 e)
  | .bin _ => .ok .bytes
  | .array _ => .ok .sequence
  | .map _ => .ok .map
  | .ext _ => .ok .extension

/-- Refuses a token where something else was wanted. -/
def refuse {α : Type} (t : Token) (wanted : Wanted) : Except Fault α :=
  match t.found with
  | .ok f => .error (.wrongType f wanted)
  | .error e => .error e

end Token

/-- A token that something follows. -/
def Token.isContainer : Token → Bool
  | .array _ | .map _ | .ext _ => true
  | _ => false

/-- The marker of the next value, which is left where it is. -/
def peekMarker : Reader Marker := fun
  | [] => .error .noMarker
  | b :: bs => .ok (Marker.ofByte b, b :: bs)

/-! ## Value by value -/

/-- How values are read one by one. Nothing is known of the bytes but what
these steps tell. -/
class Scanner (m : Type → Type) where
  /-- Decides without reading. -/
  check {α : Type} : Except Fault α → m α
  /-- Looks at the marker of the next value. -/
  peek : m Marker
  /-- Reads a token; `opens` tells the tokens behind which a
  container is opened. -/
  token (opens : Token → Bool) : m Token
  /-- Reads the type byte and the content of an extension. -/
  content (size : Nat) : m Unit
  /-- Comes to a value that is the first of `left` bytes that have been
  taken as a whole. -/
  used (left : Nat) : m Unit
  /-- Reads what is inside of a container. -/
  inside {α : Type} : m α → m α

/-- A reader just reads. -/
instance : Scanner Reader where
  check x := x
  peek := peekMarker
  token _ := Token.read
  content size := do
    let _ ← takeNat 1
    let _ ← takeContent size
  used _ := pure ()
  inside p := p

export Scanner (check peek token content used inside)

section Scanner

variable {m : Type → Type} [Monad m] [Scanner m]

/-- Reads a token behind which no container is opened. -/
def leaf : m Token := token fun _ => false

def fail {α : Type} (e : Fault) : m α := check (.error e)

/-- Reads `n` values one after the other. -/
@[specialize]
def repeatRead (one : m Unit) : Nat → m Unit
  | 0 => pure ()
  | n + 1 => do one; repeatRead one n

/-- Reads and forgets what follows a token: the elements of a container, each read
by `inner`, and the type byte and content of an extension. -/
@[specialize]
def skipContent (inner : m Unit) : Token → m Unit
  | .array count => inside (repeatRead inner count)
  | .map count => inside (repeatRead inner (2 * count))
  | .ext size => content size
  | _ => pure ()

/-- Reads a value with all that it contains and forgets it. At most `levels`
containers may be open at once. -/
@[specialize]
def skip (m : Type → Type) [Monad m] [Scanner m] : (levels : Nat) → m Unit
  | 0 => do
    if (← token Token.isContainer).isContainer then fail .tooDeep
  | levels + 1 => do
    skipContent (skip m levels) (← token Token.isContainer)

end Scanner

end ElementAgent.MessagePack

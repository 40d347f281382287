/-!
# UTF-8

`scan` cuts a byte string into characters and maximal ill-formed pieces, by the
well-formed sequences of the Unicode standard: the first byte fixes how many bytes
follow and the range of the second. Reading strictly (`decode`) and reading with
replacement (`decodeLossy`) are two views of it.

`encode` goes the other way: the bytes of a text.
-/

namespace ElementAgent.Text.Utf8

/-- A piece of a scanned byte string. -/
inductive Piece where
  /-- A well-formed sequence. -/
  | char (c : Char)
  /-- Bytes that start no character: the longest beginning of one, or
  a single byte. -/
  | invalid (width : Nat)
  /-- The beginning of a character that the input ends inside. -/
  | cut (width : Nat)
  deriving DecidableEq

/-- What the first byte of a sequence asks of those after it. -/
inductive Lead where
  /-- The byte is a character by itself. -/
  | single
  /-- `more` bytes follow, the next of them between `low` and `high`. -/
  | multi (more : Nat) (low high : UInt8)
  /-- No character starts with the byte. -/
  | none
  deriving DecidableEq

/-- The table of first bytes. -/
def lead (b : UInt8) : Lead :=
  if b < 0x80 then .single
  else if b < 0xC2 then .none
  else if b < 0xE0 then .multi 1 0x80 0xBF
  else if b = 0xE0 then .multi 2 0xA0 0xBF
  else if b = 0xED then .multi 2 0x80 0x9F
  else if b < 0xF0 then .multi 2 0x80 0xBF
  else if b = 0xF0 then .multi 3 0x90 0xBF
  else if b < 0xF4 then .multi 3 0x80 0xBF
  else if b = 0xF4 then .multi 3 0x80 0x8F
  else .none

/-- A byte that continues a sequence. -/
def isTail (b : UInt8) : Bool := 0x80 ≤ b && b ≤ 0xBF

/-- The payload of a continuing byte, its low six bits. -/
def low6 (b : UInt8) : Nat := b.toNat % 64

/-- The pieces of a byte string, left to right. -/
def scan : List UInt8 → List Piece
  | [] => []
  | a :: r =>
    match lead a with
    | .single => .char (Char.ofNat a.toNat) :: scan r
    | .none => .invalid 1 :: scan r
    | .multi more low high =>
      match r with
      | [] => [.cut 1]
      | b :: s =>
        if low ≤ b && b ≤ high then
          if more = 1 then .char (Char.ofNat (a.toNat % 32 * 64 + low6 b)) :: scan s
          else match s with
            | [] => [.cut 2]
            | c :: t =>
              if isTail c then
                if more = 2 then
                  .char (Char.ofNat (a.toNat % 16 * 4096 + low6 b * 64 + low6 c)) ::
                    scan t
                else match t with
                  | [] => [.cut 3]
                  | d :: u =>
                    if isTail d then
                      .char (Char.ofNat
                        (a.toNat % 8 * 262144 + low6 b * 4096 + low6 c * 64 +
                          low6 d)) :: scan u
                    else .invalid 3 :: scan (d :: u)
              else .invalid 2 :: scan (c :: t)
        else .invalid 1 :: scan (b :: s)

/-- Why a byte string is no text. -/
structure Fault where
  /-- How many bytes before the first ill-formed piece are well formed. -/
  validUpTo : Nat
  /-- The width of that piece; none if the input ends inside a so far
  well-formed sequence. -/
  width : Option Nat
  deriving DecidableEq

def Fault.message (f : Fault) : String :=
  match f.width with
  | some w => s!"invalid utf-8 sequence of {w} bytes from index {f.validUpTo}"
  | none => s!"incomplete utf-8 byte sequence from index {f.validUpTo}"

/-- The characters of pieces that are all well formed, `pos` bytes into the input;
else the first fault. -/
def charsFrom (pos : Nat) : List Piece → Except Fault (List Char)
  | [] => .ok []
  | .char c :: r =>
    match charsFrom (pos + c.utf8Size) r with
    | .ok cs => .ok (c :: cs)
    | .error e => .error e
  | .invalid w :: _ => .error ⟨pos, some w⟩
  | .cut _ :: _ => .error ⟨pos, none⟩

/-- The text of a byte string, or its first fault. -/
def decode (bs : List UInt8) : Except Fault String :=
  match charsFrom 0 (scan bs) with
  | .ok cs => .ok (String.ofList cs)
  | .error e => .error e

/-- The text of a byte string with U+FFFD for every ill-formed piece. -/
def decodeLossy (bs : List UInt8) : String :=
  String.ofList ((scan bs).map fun
    | .char c => c
    | _ => '\uFFFD')

def encode (s : String) : List UInt8 := s.toList.flatMap String.utf8EncodeChar

end ElementAgent.Text.Utf8

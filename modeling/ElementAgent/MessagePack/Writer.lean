import ElementAgent.BigEndian
import ElementAgent.Text.Utf8

/-!
# Writing values

Every number, text and map header is written in the shortest form that holds it.
-/

namespace ElementAgent.MessagePack

def writeNil : List UInt8 := [0xc0]

/-- A number from 0 to 2^64 - 1. -/
def writeUnsigned (n : Nat) : List UInt8 :=
  if n < 0x80 then [UInt8.ofNat n]
  else if n < 0x100 then 0xcc :: bigEndian 1 n
  else if n < 0x10000 then 0xcd :: bigEndian 2 n
  else if n < 0x100000000 then 0xce :: bigEndian 4 n
  else 0xcf :: bigEndian 8 n

/-- The two's complement of a number in `width` bytes. -/
def twosComplement (width : Nat) (n : Int) : Nat := (n % byteRange width).toNat

/-- A number from -2^63 to 2^64 - 1. -/
def writeInteger (n : Int) : List UInt8 :=
  if 0 ≤ n then writeUnsigned n.toNat
  else if -0x20 ≤ n then bigEndian 1 (twosComplement 1 n)
  else if -0x80 ≤ n then 0xd0 :: bigEndian 1 (twosComplement 1 n)
  else if -0x8000 ≤ n then 0xd1 :: bigEndian 2 (twosComplement 2 n)
  else if -0x80000000 ≤ n then 0xd2 :: bigEndian 4 (twosComplement 4 n)
  else 0xd3 :: bigEndian 8 (twosComplement 8 n)

/-- The header of a text of `n` bytes. -/
def textHeader (n : Nat) : List UInt8 :=
  if n < 0x20 then [UInt8.ofNat (0xa0 + n)]
  else if n < 0x100 then 0xd9 :: bigEndian 1 n
  else if n < 0x10000 then 0xda :: bigEndian 2 n
  else 0xdb :: bigEndian 4 n

def writeText (s : String) : List UInt8 :=
  let content := Text.Utf8.encode s
  textHeader content.length ++ content

/-- The header of a map of `n` pairs. -/
def mapHeader (n : Nat) : List UInt8 :=
  if n < 0x10 then [UInt8.ofNat (0x80 + n)]
  else if n < 0x10000 then 0xde :: bigEndian 2 n
  else 0xdf :: bigEndian 4 n

/-- A map with texts as keys; the values are written already. -/
def writeMap (entries : List (String × List UInt8)) : List UInt8 :=
  mapHeader entries.length ++ entries.flatMap fun e => writeText e.1 ++ e.2

/-- A value that may be missing. -/
def writeNullable {α : Type} (write : α → List UInt8) : Option α → List UInt8
  | none => writeNil
  | some a => write a

end ElementAgent.MessagePack

/-!
# Markers

The first byte of a MessagePack value: its kind and, for the short forms, its
value or length.
-/

namespace ElementAgent.MessagePack

inductive Marker where
  | fixPos (n : Nat)
  | fixMap (n : Nat)
  | fixArray (n : Nat)
  | fixStr (n : Nat)
  | null
  /-- The one byte that starts no value. -/
  | reserved
  | no
  | yes
  /-- A byte string whose length takes `width` bytes. -/
  | bin (width : Nat)
  /-- An extension whose length takes `width` bytes. -/
  | ext (width : Nat)
  | float32
  | float64
  /-- An unsigned number of `width` bytes. -/
  | unsigned (width : Nat)
  /-- A signed number of `width` bytes. -/
  | signed (width : Nat)
  /-- An extension of `size` bytes. -/
  | fixExt (size : Nat)
  /-- A text whose length takes `width` bytes. -/
  | str (width : Nat)
  /-- An array whose length takes `width` bytes. -/
  | array (width : Nat)
  /-- A map whose length takes `width` bytes. -/
  | map (width : Nat)
  | fixNeg (n : Int)
  deriving DecidableEq

namespace Marker

def ofByte (b : UInt8) : Marker :=
  let n := b.toNat
  if n < 0x80 then .fixPos n
  else if n < 0x90 then .fixMap (n - 0x80)
  else if n < 0xa0 then .fixArray (n - 0x90)
  else if n < 0xc0 then .fixStr (n - 0xa0)
  else if n = 0xc0 then .null
  else if n = 0xc1 then .reserved
  else if n = 0xc2 then .no
  else if n = 0xc3 then .yes
  else if n < 0xc7 then .bin (1 <<< (n - 0xc4))
  else if n < 0xca then .ext (1 <<< (n - 0xc7))
  else if n = 0xca then .float32
  else if n = 0xcb then .float64
  else if n < 0xd0 then .unsigned (1 <<< (n - 0xcc))
  else if n < 0xd4 then .signed (1 <<< (n - 0xd0))
  else if n < 0xd9 then .fixExt (1 <<< (n - 0xd4))
  else if n < 0xdc then .str (1 <<< (n - 0xd9))
  else if n < 0xde then .array (1 <<< (n - 0xdb))
  else if n < 0xe0 then .map (1 <<< (n - 0xdd))
  else .fixNeg (n - 256)

/-- The name of a marker; the long forms are named by the bits of their
length or value. -/
def name : Marker → String
  | .fixPos n => s!"FixPos({n})"
  | .fixMap n => s!"FixMap({n})"
  | .fixArray n => s!"FixArray({n})"
  | .fixStr n => s!"FixStr({n})"
  | .null => "Null"
  | .reserved => "Reserved"
  | .no => "False"
  | .yes => "True"
  | .bin width => s!"Bin{8 * width}"
  | .ext width => s!"Ext{8 * width}"
  | .float32 => "F32"
  | .float64 => "F64"
  | .unsigned width => s!"U{8 * width}"
  | .signed width => s!"I{8 * width}"
  | .fixExt size => s!"FixExt{size}"
  | .str width => s!"Str{8 * width}"
  | .array width => s!"Array{8 * width}"
  | .map width => s!"Map{8 * width}"
  | .fixNeg n => s!"FixNeg({n})"

end Marker

end ElementAgent.MessagePack

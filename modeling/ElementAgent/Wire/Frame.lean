import ElementAgent.BigEndian
import ElementAgent.MessagePack.Fault

/-!
# Frames

A message's body travels behind its length in four bytes, most significant first.
Bodies of more than 64 KiB are neither written nor read.

`Splitter` cuts a stream of bytes into bodies as they arrive. It takes a header
off the buffer at once, before its body is complete.
-/

namespace ElementAgent.Wire

open MessagePack (Fault)

/-- The longest body. -/
def maxBody : Nat := 65536

inductive CodecFault where
  /-- A header announces a body that is too long. -/
  | oversizeHeader
  /-- A body to be written is too long. -/
  | oversizeBody
  /-- The stream ended inside a frame. -/
  | leftover
  /-- A body cannot be read. -/
  | body (fault : Fault)
  deriving DecidableEq

def CodecFault.message : CodecFault → String
  | .oversizeHeader | .oversizeBody => "i/o: frame size too big"
  | .leftover => "i/o: bytes remaining on stream"
  | .body fault => s!"decode: {fault.message}"

/-- Appends the frame of a body to a buffer, or leaves the buffer alone. -/
def appendFrame (buffer body : List UInt8) : Except CodecFault (List UInt8) :=
  if body.length ≤ maxBody then .ok (buffer ++ bigEndian 4 body.length ++ body)
  else .error .oversizeBody

/-- A splitter between two calls. -/
structure Splitter where
  /-- The length of the body that comes next, once its header has been taken. -/
  awaited : Option Nat
  deriving DecidableEq

/-- What a splitter finds at the front of a buffer. -/
inductive Piece where
  /-- Not enough bytes. -/
  | more
  /-- The header of a body that is too long. -/
  | oversize
  | body (bytes : List UInt8)
  deriving DecidableEq

namespace Splitter

def fresh : Splitter := ⟨none⟩

/-- Takes a body of `n` bytes off the buffer, if it is complete. -/
def takeBody (n : Nat) (buffer : List UInt8) : Piece × Splitter × List UInt8 :=
  let body := buffer.take n
  if body.length = n then (.body body, fresh, buffer.drop n)
  else (.more, ⟨some n⟩, buffer)

/-- The piece at the front of a buffer, and what is left. A header that is
too long stays. -/
def next (s : Splitter) (buffer : List UInt8) : Piece × Splitter × List UInt8 :=
  match s.awaited with
  | some n => takeBody n buffer
  | none =>
    match buffer with
    | a :: b :: c :: d :: rest =>
      let n := ofBigEndian [a, b, c, d]
      if maxBody < n then (.oversize, s, buffer) else takeBody n rest
    | _ => (.more, s, buffer)

end Splitter

/-- What a decoder of messages `α` finds at the front of a buffer. -/
inductive Decoded (α : Type) where
  | more
  | message (a : α)
  | fault (f : CodecFault)

/-- The message at the front of a buffer. A body that cannot be read
costs only itself. -/
def decodeNext {α : Type} (read : List UInt8 → Except Fault α) (s : Splitter)
    (buffer : List UInt8) :
    Decoded α × Splitter × List UInt8 :=
  match s.next buffer with
  | (.more, s, rest) => (.more, s, rest)
  | (.oversize, s, rest) => (.fault .oversizeHeader, s, rest)
  | (.body body, s, rest) =>
    match read body with
    | .ok a => (.message a, s, rest)
    | .error e => (.fault (.body e), s, rest)

/-- The message at the front of a buffer to which nothing will be added. Bytes
that make no whole frame are a fault. -/
def decodeLast {α : Type} (read : List UInt8 → Except Fault α) (s : Splitter)
    (buffer : List UInt8) :
    Decoded α × Splitter × List UInt8 :=
  match decodeNext read s buffer with
  | (.more, s, []) => (.more, s, [])
  | (.more, s, rest) => (.fault .leftover, s, rest)
  | found => found

end ElementAgent.Wire

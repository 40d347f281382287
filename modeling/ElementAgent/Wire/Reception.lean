import ElementAgent.Wire.Frame

/-!
# Reading a stream of frames

`decodeAll` takes every complete frame off a buffer. A `Reception` reads
messages from chunks of a stream as they come; the first fault, or the end of
the stream, ends it.
-/

namespace ElementAgent.Wire

open MessagePack (Fault)

variable {α : Type}

/-- At most `steps` results from the front of a buffer, up to the first that is
not a message or a body that cannot be read. -/
def decodeUpTo (read : List UInt8 → Except Fault α) :
    (steps : Nat) → Splitter → List UInt8 → List
    (Except CodecFault α) × Splitter × List UInt8
  | 0, s, buffer => ([], s, buffer)
  | steps + 1, s, buffer =>
    match decodeNext read s buffer with
    | (.more, s, rest) => ([], s, rest)
    | (.fault .oversizeHeader, s, rest) => ([.error .oversizeHeader], s, rest)
    | (.fault f, s, rest) =>
      let (found, s, rest) := decodeUpTo read steps s rest
      (.error f :: found, s, rest)
    | (.message a, s, rest) =>
      let (found, s, rest) := decodeUpTo read steps s rest
      (.ok a :: found, s, rest)

/-- Everything that can be decoded from a buffer. Every frame but the first takes
four bytes of it at least, so its length bounds the number of steps. -/
def decodeAll (read : List UInt8 → Except Fault α) (s : Splitter)
    (buffer : List UInt8) :
    List (Except CodecFault α) × Splitter × List UInt8 :=
  decodeUpTo read (buffer.length + 2) s buffer

inductive Ending where
  | endOfStream
  | fault (f : CodecFault)
  deriving DecidableEq

/-- A reader of a stream between two chunks. -/
structure Reception where
  splitter : Splitter
  buffer : List UInt8
  ending : Option Ending

namespace Reception

def fresh : Reception := ⟨.fresh, [], none⟩

/-- The messages in front of the first fault, and that fault. -/
def untilFault : List (Except CodecFault α) → List α × Option Ending
  | [] => ([], none)
  | .error f :: _ => ([], some (.fault f))
  | .ok a :: rest =>
    let (as, ending) := untilFault rest
    (a :: as, ending)

/-- Reads a chunk. -/
def feed (read : List UInt8 → Except Fault α) (r : Reception) (chunk : List UInt8) :
    List α × Reception :=
  match r.ending with
  | some _ => ([], r)
  | none =>
    let (found, splitter, buffer) := decodeAll read r.splitter (r.buffer ++ chunk)
    let (messages, ending) := untilFault found
    (messages, ⟨splitter, buffer, ending⟩)

/-- Reads the end of the stream, after all its chunks. -/
def finish (read : List UInt8 → Except Fault α) (r : Reception) : Reception :=
  match r.ending with
  | some _ => r
  | none =>
    match decodeLast read r.splitter r.buffer with
    | (.fault f, splitter, buffer) => ⟨splitter, buffer, some (.fault f)⟩
    | (_, splitter, buffer) => ⟨splitter, buffer, some .endOfStream⟩

end Reception

end ElementAgent.Wire

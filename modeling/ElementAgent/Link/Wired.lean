import ElementAgent.Link.Pipe
import ElementAgent.Wire.Frame

/-!
# Ends of a connection on pipes

What the two ends of a connection have in common: bytes read and not yet decoded,
bytes encoded and not yet written, and the pipes in the two directions. A move
takes one of them a bit further; how many bytes go at once is left open.
-/

namespace ElementAgent

/-- An end of a connection without its pipes. -/
structure Endpoint (σ : Type) where
  side : σ
  splitter : Wire.Splitter
  /-- Bytes that were read and not yet decoded. -/
  buffer : List UInt8
  /-- Bytes that were encoded and not yet written. -/
  sending : List UInt8

def Endpoint.fresh {σ : Type} (side : σ) : Endpoint σ := ⟨side, .fresh, [], []⟩

/-- An end of a connection with its two pipes. -/
structure Wired (σ : Type) extends Endpoint σ where
  inbound : Pipe
  outbound : Pipe

namespace Wired

variable {σ : Type} {α : Type}

def pull? (w : Wired σ) (n : Nat) : Option (Wired σ) :=
  if n = 0 then none
  else (w.inbound.take? n).map fun (bs, p) =>
    { w with buffer := w.buffer ++ bs, inbound := p }

def push? (w : Wired σ) (n : Nat) : Option (Wired σ) :=
  if n = 0 ∨ w.sending.length < n then none
  else (w.outbound.put? (w.sending.take n)).map fun p =>
    { w with sending := w.sending.drop n, outbound := p }

/-- What the reader finds next, if there is anything: a message, a fault, or the
end of the stream (`none` inside). -/
def found? (read : List UInt8 → Except MessagePack.Fault α) (w : Wired σ) :
    Option (Option (Except Wire.CodecFault α) × Wired σ) :=
  match Wire.decodeNext read w.splitter w.buffer with
  | (.message a, s, rest) =>
      some (some (.ok a), { w with splitter := s, buffer := rest })
  | (.fault f, s, rest) =>
      some (some (.error f), { w with splitter := s, buffer := rest })
  | (.more, s, rest) =>
    let w := { w with splitter := s, buffer := rest }
    if w.inbound.isEnded then
      match Wire.decodeLast read s rest with
      | (.message a, s, rest) =>
          some (some (.ok a), { w with splitter := s, buffer := rest })
      | (.fault f, s, rest) =>
          some (some (.error f), { w with splitter := s, buffer := rest })
      | (.more, _, _) => some (none, w)
    else none

/-- The writer's bytes can go nowhere. -/
def isStuck (w : Wired σ) : Bool := !w.sending.isEmpty && !w.outbound.readerHeld

def letGo (w : Wired σ) : Wired σ :=
  { w with
    inbound := { w.inbound with readerHeld := false }
    outbound := { w.outbound with writerHeld := false } }

/-- One of the pipes is still held. -/
def holdsPipe (w : Wired σ) : Bool := w.inbound.readerHeld || w.outbound.writerHeld

end Wired

end ElementAgent

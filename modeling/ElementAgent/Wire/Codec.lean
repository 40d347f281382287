import ElementAgent.Wire.Format
import ElementAgent.Wire.Frame

/-!
# Codecs

An end of a connection writes messages of one kind and reads messages of the
other. What it writes goes behind whatever the buffer holds, which stays in
use after a fault.
-/

namespace ElementAgent.Wire

/-- How an end writes the messages `Out` and reads the messages `In`. -/
structure Codec (Out In : Type) where
  write : Out → List UInt8
  read : List UInt8 → Except MessagePack.Fault In

namespace Codec

/-- The controller's: it writes requests and reads replies. -/
def controller : Codec Request Reply := ⟨encodeRequest, decodeReply⟩

/-- The agent's: it writes replies and reads requests. -/
def agent : Codec Reply Request := ⟨encodeReply, decodeRequest⟩

variable {Out In : Type}

/-- Writes the frame of a message behind what the buffer holds. A fault leaves
there what was written before it. -/
def encode (c : Codec Out In) (a : Out) :
    ExceptT CodecFault (StateM (List UInt8)) Unit := do
  let body := c.write a
  if maxBody < body.length then throw .oversizeBody
  modify (· ++ bigEndian 4 body.length)
  modify (· ++ body)

/-- Encodes messages one after the other, each of them whatever became of
those before it. -/
def encodeAll (c : Codec Out In) :
    List Out → StateM (List UInt8) (List (Except CodecFault Unit))
  | [] => pure []
  | a :: as => do
    let outcome ← (c.encode a).run
    return outcome :: (← c.encodeAll as)

end Codec

end ElementAgent.Wire

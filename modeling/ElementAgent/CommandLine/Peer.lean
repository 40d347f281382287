import ElementAgent.Host.Fault
import ElementAgent.Link.AgentSession

/-!
# Far ends of a single call

What the far end of a connection does once it has read the one request that is
made on it: it writes bytes and closes the connection, each some time after
what it did before.
-/

namespace ElementAgent

inductive PeerAct where
  | write (bytes : List UInt8)
  | close

structure Peer where
  /-- How long it takes to be connected to it, in milliseconds, or
  why that fails. -/
  connect : Except HostFault Nat
  /-- What it does after a request, and how long after what it did before. -/
  acts : Request → List (Nat × PeerAct)

namespace Peer

/-- A far end that cannot be reached. -/
def absent (fault : HostFault) : Peer := ⟨.error fault, fun _ => []⟩

/-- A far end that writes one reply at once. -/
def replying (reply : Request → Reply) : Peer where
  connect := .ok 0
  acts request :=
    match Wire.appendFrame [] (Wire.encodeReply (reply request)) with
    | .ok bytes => [(0, .write bytes)]
    | .error _ => [(0, .close)]

/-- The acts that write replies which are due at certain times, from a time on. -/
def writes (now : Nat) : List (Nat × Reply) → List (Nat × PeerAct)
  | [] => []
  | (time, reply) :: rest =>
    match Wire.appendFrame [] (Wire.encodeReply reply) with
    | .ok bytes => (time - now, .write bytes) :: writes time rest
    | .error _ => writes now rest

/-- A far end that is an agent and is watched for some time. -/
def agent (setup : Agent.Setup) (capacity span : Nat) : Peer where
  connect := .ok 0
  acts request :=
    match Wire.appendFrame [] (Wire.encodeRequest request) with
    | .ok bytes =>
      let (_, s) := (AgentSession.fresh setup capacity).send bytes
      let (replies, _, _) := (s.advance span).tell
      writes 0 replies
    | .error _ => []

end Peer

end ElementAgent

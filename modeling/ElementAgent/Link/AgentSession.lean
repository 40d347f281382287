import ElementAgent.Link.AgentEnd
import ElementAgent.Link.Dialogue
import ElementAgent.Wire.Reception

/-!
# Sessions of an agent

An agent on pipes whose far end is played step by step and reads every reply as
soon as it comes. Time stands still while anything can move, and passes from one
due answer to the next.
-/

namespace ElementAgent

/-- An agent at work. -/
structure AgentSession where
  setup : Agent.Setup
  dialogue : Dialogue Agent
  /-- What the far end has read of the replies. -/
  reception : Wire.Reception
  /-- The replies that have come, each with its time, and have not been told. -/
  replies : List (Nat × Reply)
  /-- How many starts of lookups have been told. -/
  told : Nat

namespace AgentSession

def fresh (setup : Agent.Setup) (capacity : Nat) : AgentSession :=
  ⟨setup, .fresh (.fresh setup) capacity true, .fresh, [], 0⟩

def agent (s : AgentSession) : Agent := s.dialogue.wired.side

/-- Reads what the far end has heard. -/
def collect (s : AgentSession) : AgentSession :=
  let (found, reception) := s.reception.feed Wire.decodeReply s.dialogue.heard
  let outbound := s.dialogue.wired.outbound
  { s with
    reception :=
      if outbound.readerHeld &&
        outbound.isEnded then reception.finish Wire.decodeReply else reception
    replies := s.replies ++ found.map fun r => (s.agent.now, r)
    dialogue := { s.dialogue with trail := [] } }

def rest (s : AgentSession) : AgentSession :=
  { s with dialogue := s.dialogue.rest (AgentEnd.next s.setup) }.collect

def setClock (s : AgentSession) (now : Nat) : AgentSession :=
  { s with dialogue := s.dialogue.mapSide fun a => { a with now } }

/-- Goes to the next due answer, if it comes no later than `target`. -/
def tick (target : Nat) (s : AgentSession) : Option AgentSession :=
  match AgentEnd.nextDue s.setup s.agent with
  | some due =>
      if due ≤ target then some (s.setClock (max due s.agent.now)).rest else none
  | none => none

def advance (s : AgentSession) (ms : Nat) : AgentSession :=
  let target := s.agent.now + ms
  ((settle (tick target) patience s).setClock target).rest

def send (s : AgentSession) (bs : List UInt8) : Sent × AgentSession :=
  let (result, dialogue) := s.dialogue.send (AgentEnd.next s.setup) bs
  (result, { s with dialogue }.collect)

/-- The replies and the starts of lookups that have not been told. -/
def tell (s : AgentSession) : List (Nat × Reply) × List Pid × AgentSession :=
  let started := s.agent.started
  (s.replies, started.take (started.length - s.told),
    { s with replies := [], told := started.length })

end AgentSession

end ElementAgent

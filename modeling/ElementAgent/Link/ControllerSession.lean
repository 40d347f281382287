import ElementAgent.Link.ControllerEnd
import ElementAgent.Link.Dialogue
import ElementAgent.Wire.Reception

/-!
# Sessions of a controller

A controller on pipes whose far end is played step by step. Callers may
abandon their calls, which changes nothing but that they are not told what
the calls come to.
-/

namespace ElementAgent

/-- A controller at work. -/
structure ControllerSession where
  dialogue : Dialogue Controller
  /-- What the far end has read of the requests. -/
  reception : Wire.Reception
  /-- The numbers of the calls that nobody waits for. -/
  abandoned : List Nat
  /-- How many completions have been told. -/
  told : Nat

namespace ControllerSession

def fresh (capacity : Nat) : ControllerSession :=
  ⟨.fresh .fresh capacity false, .fresh, [], 0⟩

def controller (s : ControllerSession) : Controller := s.dialogue.wired.side

def rest (s : ControllerSession) : ControllerSession :=
  { s with dialogue := s.dialogue.rest ControllerEnd.next }

/-- The owner takes a step, if it is open, and everything runs. -/
def act (s : ControllerSession) (e : Controller.Event) : ControllerSession :=
  { s with dialogue := s.dialogue.mapSide fun c => (c.step? e).getD c }

/-- The completions that have not been told, to callers that wait for them, by the
number of the call. -/
def tell (s : ControllerSession) : List (Nat × Completion) × ControllerSession :=
  let completed := s.controller.calls.completed
  let news := completed.take (completed.length - s.told)
  let heard := news.filter fun (n, _) => !s.abandoned.contains n
  (heard.mergeSort fun a b => a.1 ≤ b.1, { s with told := completed.length })

def lookup (s : ControllerSession) (pid : Pid) : ControllerSession :=
  s.act (.lookup pid)

/-- Makes a health call; if it failed at once, its caller is told here. -/
def health (s : ControllerSession) : Option Completion × ControllerSession :=
  let number := s.controller.calls.issued
  let s := s.act .health
  match s.controller.calls.completed with
  | (n, o) :: _ =>
      if n = number then (some o, { s with told := s.told + 1 }) else (none, s)
  | [] => (none, s)

def abandon (s : ControllerSession) (number : Nat) : ControllerSession :=
  { s with abandoned := number :: s.abandoned }

/-- The owner drops the controller. Callers of health checks cannot outlive it and
stop waiting. -/
def drop (s : ControllerSession) : ControllerSession :=
  let health :=
    (s.controller.calls.pending.map Prod.snd).filter (·.exchange = .health)
  let s := { s with abandoned := health.map Call.number ++ s.abandoned }
  s.act .drop

def send (s : ControllerSession) (bs : List UInt8) : Sent × ControllerSession :=
  let (result, dialogue) := s.dialogue.send ControllerEnd.next bs
  (result, { s with dialogue })

/-- The far end reads all that comes. It answers the requests and, if reading has
ended, how; none if it has let go of the pipe. -/
def receive (s : ControllerSession) :
    Option (List Request × Option Wire.Ending) × ControllerSession :=
  if s.dialogue.wired.outbound.readerHeld then
    let dialogue := { s.dialogue with listening := true }.rest ControllerEnd.next
    let (requests, reception) := s.reception.feed Wire.decodeRequest dialogue.heard
    let reception :=
      if dialogue.wired.outbound.isEnded then reception.finish Wire.decodeRequest
      else reception
    let dialogue := { dialogue with listening := false, trail := [] }
    (some (requests, reception.ending), { s with dialogue, reception })
  else (none, s)

end ControllerSession

end ElementAgent

import ElementAgent.Agent
import ElementAgent.Link.Wired
import ElementAgent.Wire.Format

/-!
# An agent on pipes

The moves of the agent's tasks with the bytes they read and write. A reply whose
frame would be too long cannot be written: it ends the writer.
-/

namespace ElementAgent

/-- An agent with its pipes. -/
abbrev AgentEnd := Wired Agent

namespace AgentEnd

open Agent (Setup)

/-- What one of the tasks can do. -/
inductive Move where
  /-- The reader, while it waits for the next request, reads `n` bytes. -/
  | pull (n : Nat)
  /-- The reader takes what comes next on the stream. -/
  | read
  | grant
  | report
  | begin (number : Nat)
  | finish (number : Nat)
  | hand (number : Nat)
  | take
  /-- The writer writes `n` bytes. -/
  | push (n : Nat)
  /-- The writer finds that its bytes can go nowhere. -/
  | fail
  | flush
  | writerDone
  /-- The agent has finished and the pipes are let go. -/
  | release

def act? (s : Setup) (w : AgentEnd) (e : Agent.Event) : Option AgentEnd :=
  (w.side.step? s e).map fun a => { w with side := a }

/-- One move; none if it is not open. -/
def step? (s : Setup) (w : AgentEnd) : Move → Option AgentEnd
  | .pull n => if w.side.reading = .ready then w.pull? n else none
  | .read =>
    if w.side.reading = .ready then
      match w.found? Wire.decodeRequest with
      | some (some (.ok r), w) => act? s w (.receive (.request r))
      | some (some (.error _), w) => act? s w (.receive .undecodable)
      | some (none, w) => act? s w (.receive .endOfStream)
      | none => none
    else none
  | .grant => act? s w .grant
  | .report => act? s w .report
  | .begin number => act? s w (.begin number)
  | .finish number => act? s w (.finish number)
  | .hand number => act? s w (.hand number)
  | .take =>
    (act? s w .take).bind fun w =>
      match w.side.writing with
      | .busy r =>
        match Wire.appendFrame [] (Wire.encodeReply r) with
        | .ok bytes => some { w with sending := bytes }
        | .error _ => act? s w .writeFailed
      | _ => none
  | .push n => w.push? n
  | .fail =>
    if w.isStuck then (act? s w .writeFailed).map fun w =>
      { w with sending := [] } else none
  | .flush => if w.sending.isEmpty then act? s w .wrote else none
  | .writerDone => act? s w .writerDone
  | .release => if w.side.isServed && w.holdsPipe then some w.letGo else none

/-- The next step of a lookup that has been started. -/
def ongoing (l : Agent.Lookup) : Option Move :=
  match l.stage with
  | .waiting => none
  | .running _ => some (.finish l.number)
  | .answered _ => some (.hand l.number)

/-- The start of a lookup that has not been started. -/
def starting (l : Agent.Lookup) : Option Move :=
  match l.stage with
  | .waiting => some (.begin l.number)
  | _ => none

/-- The moves in the order in which they are tried, each with as many bytes as
possible: lookups that have been started go on before others are started. -/
def moves (w : AgentEnd) : List Move :=
  w.side.lookups.filterMap ongoing ++
    [.grant, .report, .read, .pull w.inbound.bytes.length] ++
    w.side.lookups.filterMap starting ++
    [.flush, .push (min w.sending.length w.outbound.room), .fail, .take,
      .writerDone, .release]

def next (s : Setup) (w : AgentEnd) : Option AgentEnd :=
  w.moves.findSome? (w.step? s)

/-- The next time at which a running lookup has its answer. -/
def nextDue (s : Setup) (a : Agent) : Option Nat :=
  (a.lookups.filterMap fun l =>
    match l.stage with
    | .running since => some (s.due l since)
    | _ => none).min?

end AgentEnd

end ElementAgent

import ElementAgent.Message

/-!
# The agent's end of a connection

An agent reads requests one after the other. A lookup needs one of a fixed number
of permits, which it holds until its reply has been queued; while none is free the
agent reads no further. A health check is answered by the reader itself. One
writer takes replies from a queue with as many places as there are permits.

Lookups run beside each other. Each is due when its resolver has a result or the
timeout has passed since its start. It is answered when it is next looked at: with
the result if that has come by then, and with a timeout failure otherwise.

`Agent.step?` is one step of a task or of the clock, and none where the step is
not open. A schedule is any list of events.
-/

namespace ElementAgent

/-- What a resolver does for one lookup. -/
structure Plan where
  /-- How long it takes, in milliseconds; none if it never answers. -/
  delay : Option Nat
  /-- The bundle id, or why there is none. -/
  result : Except Failure String

namespace Agent

/-- How an agent is set up. -/
structure Setup where
  /-- How many lookups may run at once. -/
  limit : Nat
  /-- How long a lookup may take, in milliseconds. -/
  timeout : Nat
  /-- What the resolver does for the lookup with a number, counted from 0 in the
  order of reading. -/
  plan : Nat → Pid → Plan
  limit_pos : 0 < limit

/-- The most permits, and places in a queue, that can be counted: a word
less three bits. -/
def maxPermits : Nat := 1 <<< 61 - 1

/-- A setup in which a limit of 0 counts as 1. -/
def Setup.of (limit timeout : Nat) (plan : Nat → Pid → Plan) : Setup where
  limit := max limit 1
  timeout := timeout
  plan := plan
  limit_pos := by omega

inductive Stage where
  /-- It has its permit and has not been started. -/
  | waiting
  /-- The resolver was asked at a time. -/
  | running (since : Nat)
  | answered (reply : LookupReply)

structure Lookup where
  number : Nat
  id : UInt64
  pid : Pid
  stage : Stage

def Lookup.isRunning (l : Lookup) : Bool :=
  match l.stage with
  | .running _ => true
  | _ => false

inductive Reading where
  | ready
  /-- It has read a lookup and waits for a permit. -/
  | holding (id : UInt64) (pid : Pid)
  /-- It has read a health check and waits for a place in the queue. -/
  | reporting (id : UInt64)
  | ended
  deriving DecidableEq

inductive Writing where
  | idle
  | busy (reply : Reply)
  | ended
  deriving DecidableEq

inductive Incoming where
  | request (r : Request)
  | undecodable
  | endOfStream
  deriving DecidableEq

def Incoming.reading : Incoming → Reading
  | .request (.lookup id pid) => .holding id pid
  | .request (.health id) => .reporting id
  | .undecodable | .endOfStream => .ended

end Agent

/-- An agent's end of a connection between two steps. -/
structure Agent where
  /-- The time in milliseconds. -/
  now : Nat
  reading : Agent.Reading
  /-- How many permits are free. -/
  free : Nat
  /-- The lookups that hold a permit, in the order of reading. -/
  lookups : List Agent.Lookup
  /-- How many lookups have been given a permit. -/
  admitted : Nat
  /-- Replies that the writer has not taken yet, oldest first. -/
  queue : List Reply
  writing : Agent.Writing
  /-- The processes whose lookups have been started, the last one first. -/
  started : List Pid
  /-- The most lookups that have been running at once. -/
  peak : Nat

namespace Agent

def fresh (s : Setup) : Agent := ⟨0, .ready, s.limit, [], 0, [], .idle, [], 0⟩

inductive Event where
  | receive (i : Incoming)
  | grant
  /-- The reader queues the report it owes, or finds the writer gone. -/
  | report
  | begin (number : Nat)
  | finish (number : Nat)
  /-- The reply of the lookup with a number is queued, or is lost because the
  writer is gone. -/
  | hand (number : Nat)
  | take
  | wrote
  | writeFailed
  /-- The writer has nothing left to write and nothing will come. -/
  | writerDone
  | elapse (ms : Nat)

/-- The reply to a lookup whose resolver came to a result. -/
def replyOf (id : UInt64) : Except Failure String → LookupReply
  | .ok b =>
      if b.isEmpty then .failed id (.internal "empty bundle id") else .found id b
  | .error f => .failed id f

end Agent

/-- The answer to a lookup that is looked at when it has run for a time. The
resolver's result goes before the timeout, even if it came later. -/
def Plan.answer (p : Plan) (elapsed : Nat) (id : UInt64) (pid : Pid) :
    LookupReply :=
  match p.delay with
  | some d =>
      if d ≤ elapsed then Agent.replyOf id p.result else .failed id (.timeout pid)
  | none => .failed id (.timeout pid)

namespace Agent

/-- How long a lookup runs until it is due: as long as the resolver takes, but no
longer than the timeout. -/
def Setup.duration (s : Setup) (p : Plan) : Nat :=
  match p.delay with
  | some d => min d s.timeout
  | none => s.timeout

def Setup.due (s : Setup) (l : Lookup) (since : Nat) : Nat :=
  since + s.duration (s.plan l.number l.pid)

def find? (a : Agent) (number : Nat) : Option Lookup :=
  a.lookups.find? (·.number == number)

def setStage (a : Agent) (number : Nat) (stage : Stage) : Agent :=
  { a with lookups := a.lookups.map fun l =>
    if l.number == number then { l with stage } else l }

/-- Takes the lookup with a number off the list and frees its permit. -/
def release (a : Agent) (number : Nat) : Agent :=
  { a with lookups := a.lookups.filter (·.number != number), free := a.free + 1 }

def running (a : Agent) : Nat := a.lookups.countP Lookup.isRunning

/-- One step; none if it is not open. -/
def step? (s : Setup) (a : Agent) : Event → Option Agent
  | .receive i =>
    match a.reading with
    | .ready => some { a with reading := i.reading }
    | _ => none
  | .grant =>
    match a.reading, a.free with
    | .holding id pid, free + 1 =>
      some { a with
        reading := .ready, free, admitted := a.admitted + 1
        lookups := a.lookups ++ [⟨a.admitted, id, pid, .waiting⟩] }
    | _, _ => none
  | .report =>
    match a.reading with
    | .reporting id =>
      if a.writing = .ended then some { a with reading := .ended }
      else if a.queue.length < s.limit then
        some { a with
          reading := .ready, queue := a.queue ++ [.health (.serving id)] }
      else none
    | _ => none
  | .begin number =>
    match a.find? number with
    | some ⟨_, _, pid, .waiting⟩ =>
      let a := a.setStage number (.running a.now)
      some { a with started := pid :: a.started, peak := max a.peak a.running }
    | _ => none
  | .finish number =>
    match a.find? number with
    | some l =>
      match l.stage with
      | .running since =>
        if s.due l since ≤ a.now then
          some (a.setStage number
            (.answered ((s.plan l.number l.pid).answer (a.now - since) l.id l.pid)))
        else none
      | _ => none
    | none => none
  | .hand number =>
    match a.find? number with
    | some ⟨_, _, _, .answered reply⟩ =>
      if a.writing = .ended then some (a.release number)
      else if a.queue.length < s.limit then
        some { a.release number with queue := a.queue ++ [.lookup reply] }
      else none
    | _ => none
  | .take =>
    match a.writing, a.queue with
    | .idle, r :: rest => some { a with writing := .busy r, queue := rest }
    | _, _ => none
  | .wrote =>
    match a.writing with
    | .busy _ => some { a with writing := .idle }
    | _ => none
  | .writeFailed =>
    match a.writing with
    | .busy _ => some { a with writing := .ended, queue := [] }
    | _ => none
  | .writerDone =>
    match a.reading, a.lookups, a.queue, a.writing with
    | .ended, [], [], .idle => some { a with writing := .ended }
    | _, _, _, _ => none
  | .elapse ms => some { a with now := a.now + ms }

def run? (s : Setup) (a : Agent) : List Event → Option Agent
  | [] => some a
  | e :: es =>
    match a.step? s e with
    | some a => a.run? s es
    | none => none

/-- The agent has finished with the connection. Lookups that are still
running are nobody's. -/
def isServed (a : Agent) : Bool := a.reading = .ended && a.writing = .ended

end Agent

end ElementAgent

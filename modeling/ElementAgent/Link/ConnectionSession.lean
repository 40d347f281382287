import ElementAgent.Link.Connection
import ElementAgent.Link.Dialogue

/-!
# Sessions of a connection

A controller and an agent at work. Callers may abandon their calls or give up at a
time of their own; a call stays outstanding until its reply comes. Time stands
still while anything can move, and passes from one due answer or deadline to the
next. A caller whose deadline falls together with the reply gives up.
-/

namespace ElementAgent

inductive Told where
  | completion (o : Completion)
  /-- The caller's own deadline has passed. -/
  | deadline

/-- A connection at work. -/
structure ConnectionSession where
  setup : Agent.Setup
  connection : Connection
  /-- The numbers of the calls that nobody waits for. -/
  abandoned : List Nat
  /-- The deadlines of callers, by the numbers of their calls. -/
  deadlines : List (Nat × Nat)
  /-- The owner wants to drop the controller once its health
  checks are through. -/
  leaving : Bool
  /-- How many completions have been noted. -/
  noted : Nat
  /-- What callers were told: time, number of the call, and what. -/
  told : List (Nat × Nat × Told)
  /-- How many starts of lookups have been told. -/
  startsTold : Nat

namespace ConnectionSession

def fresh (setup : Agent.Setup) (capacity : Nat) : ConnectionSession :=
  ⟨setup, .fresh setup capacity capacity, [], [], false, 0, [], 0⟩

def controller (s : ConnectionSession) : Controller := s.connection.near.side

def agent (s : ConnectionSession) : Agent := s.connection.far.side

def now (s : ConnectionSession) : Nat := s.agent.now

def move (s : ConnectionSession) (m : Connection.Move) : ConnectionSession :=
  { s with connection := (s.connection.step? s.setup m).getD s.connection }

/-- Tells callers of the completions that have not been noted. -/
def note (s : ConnectionSession) : ConnectionSession :=
  let completed := s.controller.calls.completed
  let news := completed.take (completed.length - s.noted)
  let heard := news.filter fun (n, _) => !s.abandoned.contains n
  { s with
    noted := completed.length
    deadlines := s.deadlines.filter fun (n, _) => !(news.map Prod.fst).contains n
    told := s.told ++ heard.map fun (n, o) => (s.now, n, .completion o) }

/-- A health check is outstanding whose caller waits for it. -/
def checksHealth (s : ConnectionSession) : Bool :=
  s.controller.calls.pending.any fun (_, c) =>
    c.exchange = .health && !s.abandoned.contains c.number

def run (s : ConnectionSession) : ConnectionSession :=
  { s with
    connection := settle (Connection.next s.setup) patience s.connection }.note

/-- Runs until no move is open; an owner who wants to leave does so as
soon as it can. -/
def rest (s : ConnectionSession) : ConnectionSession :=
  let s := s.run
  if s.leaving && !s.controller.dropped && !s.checksHealth then (s.move .drop).run
  else s

def lookup (s : ConnectionSession) (pid : Pid) : ConnectionSession :=
  if s.leaving then s else s.move (.lookup pid)

def health (s : ConnectionSession) : ConnectionSession :=
  if s.leaving then s else s.move .health

def abandon (s : ConnectionSession) (number : Nat) : ConnectionSession :=
  { s with
    abandoned := number :: s.abandoned
    deadlines := s.deadlines.filter (·.1 ≠ number) }

/-- The callers whose deadline has come give up. -/
def expire (s : ConnectionSession) : ConnectionSession :=
  let (due, later) := s.deadlines.partition (·.2 ≤ s.now)
  { s with
    abandoned := due.map Prod.fst ++ s.abandoned
    deadlines := later
    told := s.told ++ due.map fun (n, _) => (s.now, n, .deadline) }

/-- Makes a lookup call whose caller gives up after a time. -/
def lookupWithin (s : ConnectionSession) (pid : Pid) (ms : Nat) :
    ConnectionSession :=
  if s.leaving then s
  else
    let number := s.controller.calls.issued
    let s := (s.lookup pid).note
    if s.told.any (·.2.1 = number) then s
    else { s with deadlines := (number, s.now + ms) :: s.deadlines }.expire

/-- The owner drops the controller, once its health checks are through. -/
def leave (s : ConnectionSession) : ConnectionSession := { s with leaving := true }

def setClock (s : ConnectionSession) (now : Nat) : ConnectionSession :=
  s.move (.elapse (now - s.now))

/-- Goes to the next due answer or deadline, if it comes no
later than `target`. -/
def tick (target : Nat) (s : ConnectionSession) : Option ConnectionSession :=
  let times := (AgentEnd.nextDue s.setup s.agent).toList ++ s.deadlines.map Prod.snd
  match times.min? with
  | some due => if due ≤ target then some (s.setClock due).expire.rest else none
  | none => none

def advance (s : ConnectionSession) (ms : Nat) : ConnectionSession :=
  let target := s.now + ms
  ((settle (tick target) patience s).setClock target).rest

/-- What callers were told, by time and number of the call, and the starts of
lookups that have not been told. -/
def tell (s : ConnectionSession) :
    List (Nat × Nat × Told) × List Pid × ConnectionSession :=
  let started := s.agent.started
  (s.told.mergeSort fun a b => a.1 < b.1 || (a.1 == b.1 && a.2.1 ≤ b.2.1),
    started.take (started.length - s.startsTold),
    { s with told := [], startsTold := started.length })

end ConnectionSession

end ElementAgent

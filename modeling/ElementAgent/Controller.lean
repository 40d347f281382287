import ElementAgent.Call.Table

/-!
# The controller's end of a connection

A controller makes calls on one connection. Two tasks serve it: the writer takes
requests from a queue in the order of the calls and writes one after the other,
the reader matches replies to calls. Either may end for good. When one of them
finds the connection gone it closes the table of calls; when the controller is
dropped the writer still writes what is queued.

`Controller.step?` is one step of either task or of the owner, and none where the
step is not open. Which step comes next is nobody's choice here: a schedule is any
list of events.
-/

namespace ElementAgent

/-- A controller between two steps. -/
structure Controller where
  calls : CallTable
  /-- Requests that the writer has not taken yet, oldest first. -/
  queue : List Request
  writing : Option Request
  writerGone : Bool
  readerGone : Bool
  /-- The owner has let go of the controller. -/
  dropped : Bool

namespace Controller

def fresh : Controller := ⟨.empty, [], none, false, false, false⟩

/-- Why the reader ends. -/
inductive ReaderEnd where
  /-- The stream of replies ended between two frames. -/
  | endOfStream
  /-- The stream does not continue with a frame that can be read. -/
  | undecodable
  /-- The controller was dropped. -/
  | stopped
  deriving DecidableEq

/-- How outstanding calls are told of the end of the reader. -/
def ReaderEnd.disconnect : ReaderEnd → Disconnect
  | .endOfStream => .closed
  | .undecodable => .undecodable
  | .stopped => .clientDropped

inductive Event where
  | lookup (pid : Pid)
  | health
  | drop
  | take
  | wrote
  | writeFailed
  /-- The writer has nothing left to write and nothing will come. -/
  | writerDone
  | receive (r : Reply)
  | readerDone (why : ReaderEnd)

/-- Makes a call. Its request is queued unless the call failed at once. -/
def call (c : Controller) (x : Exchange) (request : UInt64 → Request) :
    Controller :=
  let id := c.calls.nextId
  let calls := c.calls.issue x
  if c.calls.closed then { c with calls }
  else if c.writerGone then { c with calls := calls.withdraw id }
  else { c with calls, queue := c.queue ++ [request id] }

/-- One step; none if it is not open. -/
def step? (c : Controller) : Event → Option Controller
  | .lookup pid => if c.dropped then none else some (c.call .lookup (.lookup · pid))
  | .health => if c.dropped then none else some (c.call .health .health)
  | .drop => if c.dropped then none else some { c with dropped := true }
  | .take =>
    match c.writerGone, c.writing, c.queue with
    | false, none, r :: rest => some { c with writing := some r, queue := rest }
    | _, _, _ => none
  | .wrote => c.writing.map fun _ => { c with writing := none }
  | .writeFailed =>
    c.writing.map fun _ =>
      { c with
        calls := c.calls.close .writeFailed, queue := [],
        writing := none, writerGone := true }
  | .writerDone =>
    match c.writerGone, c.writing, c.queue, c.dropped with
    | false, none, [], true => some { c with writerGone := true }
    | _, _, _, _ => none
  | .receive r =>
      if c.readerGone then none else some { c with calls := c.calls.receive r }
  | .readerDone why =>
    if c.readerGone ∨ (why = .stopped ∧ c.dropped = false) then none
    else some { c with calls := c.calls.close why.disconnect, readerGone := true }

def run? (c : Controller) : List Event → Option Controller
  | [] => some c
  | e :: es =>
    match c.step? e with
    | some c => c.run? es
    | none => none

end Controller

end ElementAgent

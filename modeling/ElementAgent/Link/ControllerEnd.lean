import ElementAgent.Controller
import ElementAgent.Link.Wired
import ElementAgent.Wire.Format

/-!
# A controller on pipes

The moves of the controller's two tasks with the bytes they read and write.
Requests are small: their frames are never too long.
-/

namespace ElementAgent

/-- A controller with its pipes. -/
abbrev ControllerEnd := Wired Controller

namespace ControllerEnd

/-- What one of the tasks can do. -/
inductive Move where
  /-- The reader reads `n` bytes. -/
  | pull (n : Nat)
  /-- The reader takes what comes next on the stream. -/
  | read
  /-- The reader sees that the controller was dropped. -/
  | stop
  | take
  /-- The writer writes `n` bytes. -/
  | push (n : Nat)
  /-- The writer finds that its bytes can go nowhere. -/
  | fail
  | flush
  | finish
  /-- Both tasks have ended and the pipes are let go. -/
  | release

def act? (w : ControllerEnd) (e : Controller.Event) : Option ControllerEnd :=
  (w.side.step? e).map fun c => { w with side := c }

/-- One move; none if it is not open. -/
def step? (w : ControllerEnd) : Move → Option ControllerEnd
  | .pull n => if w.side.readerGone then none else w.pull? n
  | .read =>
    if w.side.readerGone then none
    else match w.found? Wire.decodeReply with
      | some (some (.ok r), w) => act? w (.receive r)
      | some (some (.error _), w) => act? w (.readerDone .undecodable)
      | some (none, w) => act? w (.readerDone .endOfStream)
      | none => none
  | .stop => act? w (.readerDone .stopped)
  | .take =>
    (act? w .take).bind fun w =>
      match w.side.writing with
      | some r =>
        match Wire.appendFrame [] (Wire.encodeRequest r) with
        | .ok bytes => some { w with sending := bytes }
        | .error _ => act? w .writeFailed
      | none => none
  | .push n => w.push? n
  | .fail =>
    if w.isStuck then (act? w .writeFailed).map fun w =>
      { w with sending := [] } else none
  | .flush => if w.sending.isEmpty then act? w .wrote else none
  | .finish =>
    (act? w .writerDone).map fun w =>
      { w with outbound := { w.outbound with writerHeld := false } }
  | .release =>
    if w.side.readerGone && w.side.writerGone && w.holdsPipe then some w.letGo
    else none

/-- The moves in the order in which they are tried, each with as many
bytes as possible. -/
def moves (w : ControllerEnd) : List Move :=
  [.stop, .read, .pull w.inbound.bytes.length, .flush,
    .push (min w.sending.length w.outbound.room), .fail, .take, .finish, .release]

def next (w : ControllerEnd) : Option ControllerEnd := w.moves.findSome? w.step?

end ControllerEnd

end ElementAgent

import ElementAgent.Call.Table
import ElementAgent.CommandLine.Ending
import ElementAgent.CommandLine.Peer

/-!
# Single calls

The two commands that make one call, print one line and end. `OneShot` is the
call: a table with this call alone and what has been read of the replies. It is
over when the table has completed it, or when the time is up.

`LookupOptions.run` and `HealthOptions.run` say what comes out for a far end. A
health check has to be connected in time too.
-/

namespace ElementAgent

/-- A call that is alone on its connection. -/
structure OneShot where
  calls : CallTable
  reception : Wire.Reception

namespace OneShot

def start (x : Exchange) : OneShot := ⟨CallTable.empty.issue x, .fresh⟩

/-- Closes the table once reading has ended. -/
def settle (s : OneShot) : OneShot :=
  match s.reception.ending with
  | none => s
  | some .endOfStream => { s with calls := s.calls.close .closed }
  | some (.fault _) => { s with calls := s.calls.close .undecodable }

/-- Reads what the far end does. -/
def hear (s : OneShot) : PeerAct → OneShot
  | .write bytes =>
    let (replies, reception) := s.reception.feed Wire.decodeReply bytes
    settle { calls := replies.foldl CallTable.receive s.calls, reception }
  | .close => settle { s with reception := s.reception.finish Wire.decodeReply }

def outcome? (s : OneShot) : Option Completion :=
  s.calls.completed.head?.map Prod.snd

/-- What the call comes to before the time `limit`, if the far end acts from the
time `now` on. -/
def await (s : OneShot) (limit now : Nat) : List (Nat × PeerAct) → Option Completion
  | [] => none
  | (wait, act) :: rest =>
    if now + wait < limit then
      let s := s.hear act
      match s.outcome? with
      | some o => some o
      | none => s.await limit (now + wait) rest
    else none

end OneShot

def Completion.lookup? : Completion → Option Outcome
  | .lookup o => some o
  | .health _ => none

def Completion.health? : Completion → Option HealthOutcome
  | .health o => some o
  | .lookup _ => none

/-- Asks a far end for a bundle id. The time counts from when the
connection stands. -/
def LookupOptions.run (o : LookupOptions) (path : Path) (peer : Peer) :
    Except RunFault String :=
  match o.fault?, peer.connect with
  | some fault, _ => .error (.options fault)
  | none, .error fault => .error (.unconnected path fault)
  | none, .ok _ =>
    let limit := o.timeout.toNat
    match ((OneShot.start .lookup).await limit 0 (peer.acts (.lookup 0 o.pid))).bind
        Completion.lookup? with
    | some (.ok bundle) => .ok bundle
    | some (.error e) => .error (.call e)
    | none => .error (.noReply limit)

/-- Checks that a far end is an agent that serves. -/
def HealthOptions.run (o : HealthOptions) (path : Path) (peer : Peer) :
    Except RunFault String :=
  match o.fault?, peer.connect with
  | some fault, _ => .error (.options fault)
  | none, .error fault => .error (.unconnected path fault)
  | none, .ok connected =>
    let limit := o.timeout.toNat
    match ((OneShot.start .health).await limit connected
        (peer.acts (.health 0))).bind Completion.health? with
    | some (.ok report) =>
        if report.isServing then .ok "ok" else .error (.unhealthy report.status)
    | some (.error e) => .error (.call e)
    | none => .error (.noAnswer limit)

/-- Starts an agent at a site, or says why not. -/
def ServeOptions.start (o : ServeOptions) (site : Site) :
    Except RunFault Unit × Site :=
  match o.fault? with
  | some fault => (.error (.options fault), site)
  | none =>
    match site.start with
    | (none, site) => (.ok (), site)
    | (some refusal, site) => (.error (.refused site.path refusal), site)

end ElementAgent

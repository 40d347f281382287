import ElementAgent.Bundle.Derived
import ElementAgent.Host.Path
import ElementAgent.Text.Quoted

/-!
# Options

What the three commands can be told, with the values that hold if nothing is said,
and which values they refuse to work with.

`socketPath` is where agent and controller meet: where the user says, else in the
user's runtime directory, else under `/tmp`.
-/

namespace ElementAgent

/-- Options of the command that runs an agent. -/
structure ServeOptions where
  socket : Option Path := none
  /-- How long a lookup may take, in milliseconds. -/
  replyTimeout : UInt64 := 5000
  /-- The beginning of derived bundle ids. -/
  bundlePrefix : String := "local.process"
  /-- How many lookups of one connection may run at once. -/
  maxInFlight : UInt64 := 64
  deriving DecidableEq

/-- Options of the command that asks for a bundle id. -/
structure LookupOptions where
  pid : Pid
  socket : Option Path := none
  /-- How long to wait for the reply, in milliseconds. -/
  timeout : UInt64 := 3000
  deriving DecidableEq

/-- Options of the command that checks that an agent is serving. -/
structure HealthOptions where
  socket : Option Path := none
  /-- How long to wait for the agent, in milliseconds. -/
  timeout : UInt64 := 3000
  deriving DecidableEq

/-- A command with its options. -/
inductive Command where
  | serve (options : ServeOptions)
  | lookup (options : LookupOptions)
  | health (options : HealthOptions)
  deriving DecidableEq

/-- Why options are refused. -/
inductive OptionFault where
  | badPrefix (bundlePrefix : String)
  | zeroTimeout
  | zeroInFlight
  deriving DecidableEq

def OptionFault.message : OptionFault → String
  | .badPrefix p =>
    "bundle prefix must be non-empty and contain only [A-Za-z0-9.-]: " ++
      Text.quoted p
  | .zeroTimeout => "timeout must be greater than zero"
  | .zeroInFlight => "max in-flight lookups must be greater than zero"

/-- The beginnings that are accepted: characters of bundle ids, at least one of
them, and a dot neither first nor last. -/
def isBundlePrefix (s : String) : Bool :=
  let cs := s.toList
  !cs.isEmpty && cs.head? != some '.' && cs.getLast? != some '.' &&
  cs.all isBundleChar

namespace ServeOptions

/-- The first reason to refuse the options. -/
def fault? (o : ServeOptions) : Option OptionFault :=
  if !isBundlePrefix o.bundlePrefix then some (.badPrefix o.bundlePrefix)
  else if o.replyTimeout = 0 then some .zeroTimeout
  else if o.maxInFlight = 0 then some .zeroInFlight
  else none

/-- How the agent is set up for every connection; none if there cannot be
as many permits. -/
def setup? (o : ServeOptions) (v : ProcessView) : Option Agent.Setup :=
  if o.maxInFlight.toNat ≤ Agent.maxPermits then
    some (.of o.maxInFlight.toNat o.replyTimeout.toNat fun _ p =>
      v.plan o.bundlePrefix p)
  else none

end ServeOptions

/-- A time to wait must not be zero. -/
def timeoutFault? (timeout : UInt64) : Option OptionFault :=
  if timeout = 0 then some .zeroTimeout else none

def LookupOptions.fault? (o : LookupOptions) : Option OptionFault :=
  timeoutFault? o.timeout

def HealthOptions.fault? (o : HealthOptions) : Option OptionFault :=
  timeoutFault? o.timeout

namespace Command

def fault? : Command → Option OptionFault
  | .serve o => o.fault?
  | .lookup o => o.fault?
  | .health o => o.fault?

def socket : Command → Option Path
  | .serve o => o.socket
  | .lookup o => o.socket
  | .health o => o.socket

end Command

/-- What the surroundings of a run decide. -/
structure Surroundings where
  /-- The user's directory for sockets and the like. An empty one
  counts as none. -/
  runtimeDirectory : Option Path
  /-- The user's number, as it stands in paths. -/
  user : String

namespace Surroundings

/-- The name of the socket in a runtime directory. -/
def socketName : Path := .ofText "idc-remote.sock"

def defaultSocket (s : Surroundings) : Path :=
  match s.runtimeDirectory with
  | some directory =>
    if directory.isEmpty then .ofText s!"/tmp/idc-remote-{s.user}.sock"
    else directory.join socketName
  | none => .ofText s!"/tmp/idc-remote-{s.user}.sock"

def socketPath (s : Surroundings) (named : Option Path) : Path :=
  named.getD s.defaultSocket

end Surroundings

end ElementAgent

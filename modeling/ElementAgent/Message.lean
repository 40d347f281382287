import ElementAgent.Element.Node

/-!
# Messages between controller and agent

Two exchanges share one connection: a lookup of the bundle id of a process, and a
health check. The reply carries the id of its request. A lookup's reply is meant
to carry exactly one of a bundle id and a failure; the type admits the other two
cases, because the controller has to be able to read and report them.
-/

namespace ElementAgent

/-- Why the agent has no bundle id to give. The categories are the agent's own. -/
structure Failure where
  /-- The category, for machines. -/
  code : String
  /-- The detail, for people. -/
  message : String
  deriving DecidableEq

namespace Failure

def processNotFound (pid : Pid) : Failure :=
  ⟨"process_not_found", s!"no process with pid {pid}"⟩

/-- The process exists but belongs to no bundle, for the given reason. -/
def notInstrumentable (pid : Pid) (reason : String) : Failure :=
  ⟨"not_instrumentable", s!"process {pid} is not instrumentable: {reason}"⟩

/-- The agent's own lookup took too long. -/
def timeout (pid : Pid) : Failure :=
  ⟨"timeout", s!"lookup for pid {pid} timed out"⟩

/-- Anything else that went wrong on the agent's side. -/
def internal (message : String) : Failure :=
  ⟨"internal", message⟩

def toText (f : Failure) : String := s!"{f.code}: {f.message}"

end Failure

/-- The two exchanges. -/
inductive Exchange where
  | lookup
  | health
  deriving DecidableEq

/-- From controller to agent. -/
inductive Request where
  /-- Which bundle does the process belong to? -/
  | lookup (id : UInt64) (pid : Pid)
  /-- Is the agent serving? -/
  | health (id : UInt64)
  deriving DecidableEq

def Request.id : Request → UInt64
  | .lookup id _ => id
  | .health id => id

def Request.exchange : Request → Exchange
  | .lookup .. => .lookup
  | .health .. => .health

structure LookupReply where
  id : UInt64
  bundle : Option String
  failure : Option Failure
  deriving DecidableEq

namespace LookupReply

/-- The answer that names a bundle. -/
def found (id : UInt64) (bundle : String) : LookupReply := ⟨id, some bundle, none⟩

/-- The answer that says why there is no bundle. -/
def failed (id : UInt64) (f : Failure) : LookupReply := ⟨id, none, some f⟩

end LookupReply

structure HealthReport where
  id : UInt64
  status : String
  version : String
  deriving DecidableEq

namespace HealthReport

/-- The version the agent reports. -/
def agentVersion : String := "0.1.0"

/-- The report of an agent that is serving. -/
def serving (id : UInt64) : HealthReport := ⟨id, "ok", agentVersion⟩

/-- The status says `ok`, whatever the case of its ASCII letters. -/
def isServing (r : HealthReport) : Bool :=
  r.status.toList.map Char.toLower == ['o', 'k']

end HealthReport

/-- From agent to controller. -/
inductive Reply where
  | lookup (reply : LookupReply)
  | health (report : HealthReport)
  deriving DecidableEq

def Reply.id : Reply → UInt64
  | .lookup r => r.id
  | .health r => r.id

def Reply.exchange : Reply → Exchange
  | .lookup _ => .lookup
  | .health _ => .health

end ElementAgent

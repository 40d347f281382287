import ElementAgent.Call.Outcome
import ElementAgent.CommandLine.Notice
import ElementAgent.CommandLine.Options
import ElementAgent.Host.Site
import ElementAgent.Text.Duration

/-!
# How a run of the program ends

With a notice, with something to print, with nothing to say, or with a fault. The
exit status is 0 when the user got what was asked for, 1 after a fault and 2 when
the command line was wrong.
-/

namespace ElementAgent

inductive RunFault where
  | options (fault : OptionFault)
  | call (error : CallError)
  /-- No reply came in time. -/
  | noReply (ms : Nat)
  /-- The agent did not answer a health check in time. -/
  | noAnswer (ms : Nat)
  /-- The agent says that it is not serving. -/
  | unhealthy (status : String)
  /-- Something lies at the path of the socket. -/
  | occupied (path : Path)
  | host (fault : HostFault)

namespace RunFault

def message : RunFault → String
  | options fault => fault.message
  | call error => error.message
  | noReply ms => s!"no reply within {Text.duration ms}"
  | noAnswer ms => s!"agent did not answer within {Text.duration ms}"
  | unhealthy status => s!"agent unhealthy: {status}"
  | occupied path => s!"{path.shown} exists and is not a socket"
  | host fault => fault.message

/-- Nobody could be dialled at a path. -/
def unconnected (path : Path) (fault : HostFault) : RunFault :=
  call (.transport s!"connect {path.shown}: {fault.message}")

/-- An agent was not started at a path. -/
def refused (path : Path) : Site.Refusal → RunFault
  | .occupied => occupied path
  | .host fault => host fault

end RunFault

inductive Ending where
  | notice (n : Notice)
  /-- It prints one line. -/
  | printed (line : String)
  /-- It was interrupted while an agent was serving. -/
  | interrupted
  | failed (fault : RunFault)

namespace Ending

def ofResult : Except RunFault String → Ending
  | .ok line => .printed line
  | .error fault => .failed fault

def status : Ending → UInt8
  | notice n => if n.isAnswer then 0 else 2
  | printed _ | interrupted => 0
  | failed _ => 1

def output : Ending → String
  | notice n => if n.isAnswer then n.text else ""
  | printed line => line ++ "\n"
  | interrupted | failed _ => ""

/-- The fault of a failed run. -/
def fault? : Ending → Option RunFault
  | failed fault => some fault
  | _ => none

/-- What the user is told about a wrong command line. -/
def complaint? : Ending → Option String
  | notice n => if n.isAnswer then none else some n.text
  | _ => none

end Ending

end ElementAgent

import ElementAgent.Link.AgentEnd
import ElementAgent.Link.ControllerEnd

/-!
# A controller and an agent joined

One controller and one agent share two pipes: what one end writes the other reads.
A move of the connection is a move of one of its ends, a step of the controller's
owner, or time passing.
-/

namespace ElementAgent

structure Connection where
  near : Endpoint Controller
  far : Endpoint Agent
  /-- From controller to agent. -/
  up : Pipe
  /-- From agent to controller. -/
  down : Pipe

namespace Connection

/-- A fresh connection over pipes of two capacities. -/
def fresh (s : Agent.Setup) (upCapacity downCapacity : Nat) : Connection :=
  ⟨.fresh .fresh, .fresh (.fresh s), .fresh upCapacity, .fresh downCapacity⟩

def controllerEnd (c : Connection) : ControllerEnd := ⟨c.near, c.down, c.up⟩

def agentEnd (c : Connection) : AgentEnd := ⟨c.far, c.up, c.down⟩

def withController (c : Connection) (w : ControllerEnd) : Connection :=
  { c with near := w.toEndpoint, down := w.inbound, up := w.outbound }

def withAgent (c : Connection) (w : AgentEnd) : Connection :=
  { c with far := w.toEndpoint, up := w.inbound, down := w.outbound }

inductive Move where
  | controller (m : ControllerEnd.Move)
  | agent (m : AgentEnd.Move)
  | lookup (pid : Pid)
  | health
  | drop
  | elapse (ms : Nat)

/-- One move; none if it is not open. -/
def step? (s : Agent.Setup) (c : Connection) : Move → Option Connection
  | .controller m => (c.controllerEnd.step? m).map c.withController
  | .agent m => (c.agentEnd.step? s m).map c.withAgent
  | .lookup pid =>
      (ControllerEnd.act? c.controllerEnd (.lookup pid)).map c.withController
  | .health => (ControllerEnd.act? c.controllerEnd .health).map c.withController
  | .drop => (ControllerEnd.act? c.controllerEnd .drop).map c.withController
  | .elapse ms => (AgentEnd.act? s c.agentEnd (.elapse ms)).map c.withAgent

def next (s : Agent.Setup) (c : Connection) : Option Connection :=
  match c.controllerEnd.next with
  | some w => some (c.withController w)
  | none => (c.agentEnd.next s).map c.withAgent

end Connection

end ElementAgent

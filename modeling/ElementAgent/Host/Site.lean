import ElementAgent.Host.Fault
import ElementAgent.Host.Path

/-!
# The site of a socket

What lies at the path where agent and controller meet, and the agents that come
and go there. An agent that starts clears a socket out of its way and nothing
else, and binds one of its own; when it stops it removes what it finds. Others may
put something else at the path at any time.

A site remembers what agents have removed from it.
-/

namespace ElementAgent

/-- What lies at a path. -/
inductive Occupant where
  | nothing
  /-- A socket; it was bound by the agent with a number, or by somebody else. -/
  | socket (binder : Option Nat)
  | file
  | directory
  /-- A symbolic link to a place where something lies. -/
  | link (target : Occupant)
  /-- The path leads nowhere. -/
  | unreachable (fault : HostFault)
  deriving DecidableEq

def Occupant.isThere : Occupant → Bool
  | .nothing | .unreachable _ => false
  | _ => true

/-- A path and the agents that have bound a socket there. -/
structure Site where
  path : Path
  occupant : Occupant
  /-- How many agents have bound a socket. -/
  bound : Nat
  /-- The agents that run, by their numbers in the order of binding. -/
  running : List Nat
  /-- What agents have removed, each with the agent's number, the last one first.
  An agent that removes something to bind its own socket goes by the number it is
  about to have. -/
  removed : List (Nat × Occupant)

namespace Site

/-- A site that no agent has been to. -/
def fresh (path : Path) (occupant : Occupant) : Site := ⟨path, occupant, 0, [], []⟩

inductive Refusal where
  /-- Something lies at the path that is not a socket. -/
  | occupied
  | host (fault : HostFault)
  deriving DecidableEq

/-- An agent removes what lies at the path. -/
def remove (s : Site) (n : Nat) : Site :=
  { s with occupant := .nothing, removed := (n, s.occupant) :: s.removed }

/-- An agent binds a socket at a path where nothing lies. -/
def bind (s : Site) : Except HostFault Site :=
  if s.path.fitsAddress then
    .ok { s with
      occupant := .socket (some s.bound), bound := s.bound + 1,
      running := s.running ++ [s.bound] }
  else .error .addressTooLong

/-- An agent starts, or is refused. -/
def start (s : Site) : Option Refusal × Site :=
  let bindOn (s : Site) : Option Refusal × Site :=
    match s.bind with
    | .ok s => (none, s)
    | .error e => (some (.host e), s)
  match s.occupant with
  | .nothing => bindOn s
  | .socket _ => bindOn (s.remove s.bound)
  | .file | .directory | .link _ => (some .occupied, s)
  | .unreachable e => (some (.host e), s)

/-- An agent stops and removes what lies at the path, unless that
is a directory. -/
def stop (s : Site) (n : Nat) : Site :=
  let s := { s with running := s.running.erase n }
  match s.occupant with
  | .socket _ | .file | .link _ => s.remove n
  | .nothing | .directory | .unreachable _ => s

inductive Event where
  | start
  | stop (number : Nat)
  /-- Somebody else puts something at the path, or takes it away. -/
  | replace (occupant : Occupant)

/-- One event; none if it is a stop of an agent that does not run. -/
def step? (s : Site) : Event → Option Site
  | .start => some s.start.2
  | .stop n => if n ∈ s.running then some (s.stop n) else none
  | .replace occupant => some { s with occupant }

/-- The site after a list of events; none if one of them cannot happen when
its turn comes. -/
def run? (s : Site) : List Event → Option Site
  | [] => some s
  | e :: es =>
    match s.step? e with
    | some s => s.run? es
    | none => none

/-- Why nobody can be dialled at a place where something lies; none if an agent
listens there. -/
def dialFault? (running : List Nat) : Occupant → Option HostFault
  | .nothing => some .noEntry
  | .socket (some n) => if n ∈ running then none else some .refused
  | .socket none | .file | .directory => some .refused
  | .link target => dialFault? running target
  | .unreachable e => some e

/-- Dials the agent that listens at the path. -/
def dial (s : Site) : Except HostFault Unit :=
  if s.path.fitsAddress then
    match dialFault? s.running s.occupant with
    | some e => .error e
    | none => .ok ()
  else .error .addressTooLong

end Site

end ElementAgent

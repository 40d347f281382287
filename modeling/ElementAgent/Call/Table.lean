import ElementAgent.Call.Outcome

/-!
# The table of outstanding calls

Calls are numbered in the order they are made; a call's id on the wire is its
number modulo 2^64. A call stands in the table under its id until it is completed:
by the first reply with its id, or when the table is closed. A closed table stays
empty: it fails new calls at once.

Replies that belong to no call, or break the rules of the exchange, are
counted as violations.
-/

namespace ElementAgent

structure Call where
  /-- Its number in the order of calls. -/
  number : Nat
  exchange : Exchange
  deriving DecidableEq

inductive Completion where
  | lookup (o : Outcome)
  | health (o : HealthOutcome)

/-- The completion of a call that failed. -/
def Completion.failed (x : Exchange) (e : CallError) : Completion :=
  match x with
  | .lookup => .lookup (.error e)
  | .health => .health (.error e)

structure CallTable where
  issued : Nat
  /-- The outstanding calls under their ids. -/
  pending : List (UInt64 × Call)
  closed : Bool
  violations : UInt64
  /-- The completed calls, the last one first. -/
  completed : List (Nat × Completion)

namespace CallTable

def empty : CallTable := ⟨0, [], false, 0, []⟩

def nextId (t : CallTable) : UInt64 := UInt64.ofNat t.issued

def complete (t : CallTable) (c : Call) (o : Completion) : CallTable :=
  { t with completed := (c.number, o) :: t.completed }

/-- Fails calls that are not in the table any more, for one reason. -/
def failAll (t : CallTable) (why : Disconnect) : List Call → CallTable
  | [] => t
  | c :: cs => (t.complete c (.failed c.exchange why.error)).failAll why cs

/-- Takes the call of an id out of the table. -/
def remove (t : CallTable) (id : UInt64) : Option (Call × CallTable) :=
  (t.pending.lookup id).map fun c =>
    (c, { t with pending := t.pending.filter (·.1 ≠ id) })

/-- Puts a call into the table. A call that stood there under the same id has lost
its completer. -/
def insert (t : CallTable) (id : UInt64) (c : Call) : CallTable :=
  let (displaced, t) := match t.remove id with
    | some (c, t) => ([c], t)
    | none => ([], t)
  { t.failAll .callDropped displaced with pending := t.pending ++ [(id, c)] }

/-- Makes a call: it is entered under the next id, or fails at once if the
table is closed. -/
def issue (t : CallTable) (x : Exchange) : CallTable :=
  let c : Call := ⟨t.issued, x⟩
  let id := t.nextId
  let t := { t with issued := t.issued + 1 }
  if t.closed then t.failAll .closed [c] else t.insert id c

/-- Fails the call of an id, if it is outstanding, because its request
cannot be passed on. -/
def withdraw (t : CallTable) (id : UInt64) : CallTable :=
  match t.remove id with
  | some (c, t) => t.failAll .closed [c]
  | none => t

def violate (t : CallTable) : CallTable := { t with violations := t.violations + 1 }

/-- Takes a reply: it completes the call of its id, if that is outstanding. -/
def receive (t : CallTable) (r : Reply) : CallTable :=
  match t.remove r.id with
  | none => t.violate
  | some (c, t) =>
    match c.exchange, r with
    | .lookup, .lookup r =>
      let t := if r.isViolation then t.violate else t
      t.complete c (.lookup r.outcome)
    | .health, .health r => t.complete c (.health (.ok r))
    | x, _ => t.violate.complete c (.failed x Violation.wrongKind.error)

/-- Fails every outstanding call and all that come later. -/
def close (t : CallTable) (why : Disconnect) : CallTable :=
  let outstanding := t.pending.map Prod.snd
  { t with pending := [], closed := true }.failAll why outstanding

def inFlight (t : CallTable) : Nat := t.pending.length

end CallTable

end ElementAgent

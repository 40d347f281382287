import ElementAgent.Link.Wired

/-!
# One end of a connection and a bare far end

The far end of the pipes is played by somebody who writes bytes, reads bytes
and lets go of the pipes when told to. Between two such acts everything runs
until no move is open.
-/

namespace ElementAgent

/-- More moves than any run makes before it comes to rest. -/
def patience : Nat := 1 <<< 60

/-- Does what `next` says until it says nothing more, at most `steps` times. -/
def settle {τ : Type} (next : τ → Option τ) : (steps : Nat) → τ → τ
  | 0, s => s
  | steps + 1, s =>
    match next s with
    | some s => settle next steps s
    | none => s

/-- An end of a connection with a bare far end. -/
structure Dialogue (σ : Type) where
  wired : Wired σ
  /-- Bytes that the far end has not written yet. -/
  outbox : List UInt8
  /-- The far end found that nobody reads what it writes. -/
  refused : Bool
  /-- The far end reads what comes. -/
  listening : Bool
  /-- Bytes that the far end has read, the last one first. -/
  trail : List UInt8

inductive Sent where
  | sent
  /-- Nobody holds the reading end. -/
  | failed
  /-- The far end has let go of the writing end. -/
  | closed
  deriving DecidableEq

namespace Dialogue

variable {σ : Type}

def fresh (side : σ) (capacity : Nat) (listening : Bool) : Dialogue σ :=
  ⟨{ Endpoint.fresh side with
    inbound := .fresh capacity, outbound := .fresh capacity },
    [], false, listening, []⟩

def heard (d : Dialogue σ) : List UInt8 := d.trail.reverse

/-- The far end writes as much as fits, or finds that it cannot. -/
def push? (d : Dialogue σ) : Option (Dialogue σ) :=
  if d.outbox.isEmpty then none
  else if !d.wired.inbound.readerHeld then
    some { d with outbox := [], refused := true }
  else
    let n := min d.outbox.length d.wired.inbound.room
    if n = 0 then none
    else (d.wired.inbound.put? (d.outbox.take n)).map fun p =>
      { d with outbox := d.outbox.drop n, wired := { d.wired with inbound := p } }

/-- The far end reads all that is in transit. -/
def pull? (d : Dialogue σ) : Option (Dialogue σ) :=
  let n := d.wired.outbound.bytes.length
  if d.listening ∧ d.wired.outbound.readerHeld ∧ n ≠ 0 then
    (d.wired.outbound.take? n).map fun (bs, p) =>
      { d with
        trail := bs.reverse ++ d.trail, wired := { d.wired with outbound := p } }
  else none

/-- The first open move of either end. What is in transit to the far
end goes first. -/
def next (step : Wired σ → Option (Wired σ)) (d : Dialogue σ) :
    Option (Dialogue σ) :=
  match d.pull? with
  | some d => some d
  | none =>
    match step d.wired with
    | some w => some { d with wired := w }
    | none => d.push?

def rest (step : Wired σ → Option (Wired σ)) (d : Dialogue σ) : Dialogue σ :=
  settle (next step) patience d

def send (step : Wired σ → Option (Wired σ)) (d : Dialogue σ) (bs : List UInt8) :
    Sent × Dialogue σ :=
  if d.wired.inbound.writerHeld then
    let d := rest step { d with outbox := d.outbox ++ bs, refused := false }
    (if d.refused then .failed else .sent, d)
  else (.closed, rest step d)

def closeWrite (d : Dialogue σ) : Dialogue σ :=
  { d with wired :=
    { d.wired with inbound := { d.wired.inbound with writerHeld := false } } }

def closeRead (d : Dialogue σ) : Dialogue σ :=
  { d with wired :=
    { d.wired with outbound := { d.wired.outbound with readerHeld := false } } }

def mapSide (d : Dialogue σ) (f : σ → σ) : Dialogue σ :=
  { d with wired := { d.wired with side := f d.wired.side } }

end Dialogue

end ElementAgent

/-!
# Byte pipes

One direction of a connection: bytes in transit, up to a capacity. Each end is
held or dropped. A pipe whose writer is gone ends after the bytes in transit; one
whose reader is gone takes no more.
-/

namespace ElementAgent

structure Pipe where
  /-- The bytes in transit, oldest first. -/
  bytes : List UInt8
  capacity : Nat
  writerHeld : Bool
  readerHeld : Bool

namespace Pipe

def fresh (capacity : Nat) : Pipe := ⟨[], capacity, true, true⟩

def room (p : Pipe) : Nat := p.capacity - p.bytes.length

/-- Puts bytes into a pipe that has room for them and a reader. -/
def put? (p : Pipe) (bs : List UInt8) : Option Pipe :=
  if p.readerHeld ∧ bs.length ≤ p.room then some { p with bytes := p.bytes ++ bs }
  else none

/-- Takes `n` bytes off a pipe that has as many in transit. -/
def take? (p : Pipe) (n : Nat) : Option (List UInt8 × Pipe) :=
  if n ≤ p.bytes.length then
    some (p.bytes.take n, { p with bytes := p.bytes.drop n }) else none

/-- Nothing is in transit and nothing will come. -/
def isEnded (p : Pipe) : Bool := p.bytes.isEmpty && !p.writerHeld

end Pipe

end ElementAgent

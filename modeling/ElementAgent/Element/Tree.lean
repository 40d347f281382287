import ElementAgent.Element.Node

/-!
# Accessibility trees in memory

The facts of an accessibility subsystem that elements are named by: which process
owns a node, and which node is the root of a process. Processes come and go, nodes
are discarded, and a number once given to a node is not given again before all
2^64 have been used.
-/

namespace ElementAgent

structure Tree where
  /-- The live nodes, each with its owner. -/
  owners : List (Node × Pid)
  /-- The visible processes, each with its root. -/
  roots : List (Pid × Node)
  /-- The number of the next node. -/
  next : UInt64

namespace Tree

/-- The node of the whole screen, which no tree gives to a process. -/
def screen : Node := ⟨0⟩

def empty : Tree := ⟨[], [], 1⟩

def ownerOf? (t : Tree) (n : Node) : Option Pid := t.owners.lookup n

def rootOf? (t : Tree) (p : Pid) : Option Node := t.roots.lookup p

/-- Gives the next number to a node of `p`. -/
def allocate (t : Tree) (p : Pid) : Node × Tree :=
  let n : Node := ⟨t.next⟩
  (n, { t with owners := (n, p) :: t.owners.filter (·.1 ≠ n), next := t.next + 1 })

/-- Makes a process visible and answers its root; a visible process keeps
the root it has. -/
def register (t : Tree) (p : Pid) : Node × Tree :=
  match t.rootOf? p with
  | some n => (n, t)
  | none =>
    let (n, t) := t.allocate p
    (n, { t with roots := (p, n) :: t.roots })

def extend (t : Tree) (p : Pid) : Option Node × Tree :=
  match t.rootOf? p with
  | none => (none, t)
  | some _ =>
    let (n, t) := t.allocate p
    (some n, t)

/-- Removes a node, and the process whose root it is from sight. -/
def discard (t : Tree) (n : Node) : Tree :=
  { t with owners := t.owners.filter (·.1 ≠ n), roots := t.roots.filter (·.2 ≠ n) }

/-- Removes a process and every node that it owns. -/
def terminate (t : Tree) (p : Pid) : Tree :=
  { t with owners := t.owners.filter (·.2 ≠ p), roots := t.roots.filter (·.1 ≠ p) }

end Tree

end ElementAgent

/-!
# Nodes and process ids

The two names the accessibility subsystem deals in: the pid of a process and
an opaque node of a process's tree. A node is never followed; a stale one
fails the next look-up.
-/

namespace ElementAgent

abbrev Pid := Int32

/-- An opaque reference to a node of a foreign accessibility tree. -/
structure Node where
  /-- The number the subsystem gave the node. -/
  raw : UInt64
  deriving DecidableEq, Hashable

namespace Node

/-- Nodes are ordered by their numbers. -/
instance : Ord Node := ⟨fun a b => compare a.raw b.raw⟩

def toText (n : Node) : String := s!"ax#{n.raw}"

end Node

/-- The pid of the device root, which spans every process. -/
def systemPid : Pid := -1

end ElementAgent

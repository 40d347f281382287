import ElementAgent.Element.Identity
import ElementAgent.Element.Tree

/-!
# Naming native elements

A namer makes native elements from the facts of a desktop: from a node, from a
pid, and for the whole screen. It asks the desktop for the node of the whole
screen when it is first needed and keeps the element for good. Any number of
namers may share a desktop.
-/

namespace ElementAgent

/-- The accessibility subsystem as namers see it. -/
structure Desktop where
  tree : Tree
  /-- The node it names as the whole screen when asked for the `n`th
  time, from 0. -/
  screenAt : Nat → Node
  /-- How often it has been asked. -/
  asked : Nat

namespace Desktop

/-- A desktop without processes, on which the whole screen is always the
tree's own node. -/
def fresh : Desktop := ⟨.empty, fun _ => Tree.screen, 0⟩

/-- Answers the node of the whole screen. -/
def screen (d : Desktop) : Node × Desktop :=
  (d.screenAt d.asked, { d with asked := d.asked + 1 })

/-- The element of a node, attributed to the process that owns it now. -/
def elementOfNode (d : Desktop) (n : Node) : Except Element.Fault Element :=
  match d.tree.ownerOf? n with
  | some p => .ok (.native p n false)
  | none => .error (.unowned n)

def elementOfPid (d : Desktop) (p : Pid) : Except Element.Fault Element :=
  match d.tree.rootOf? p with
  | some n => .ok (.native p n false)
  | none => .error (.invisible p)

end Desktop

/-- A maker of native elements. -/
structure Namer where
  /-- The element of the whole screen, once it has been needed. -/
  kept : Option Element

namespace Namer

def fresh : Namer := ⟨none⟩

def deviceRoot (m : Namer) (d : Desktop) : Element × Namer × Desktop :=
  match m.kept with
  | some e => (e, m, d)
  | none =>
    let (n, d) := d.screen
    let e := Element.native systemPid n true
    (e, ⟨some e⟩, d)

end Namer

end ElementAgent

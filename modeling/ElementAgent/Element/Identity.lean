import ElementAgent.Element.Node

/-!
# Elements

An element is either native, a node of a live accessibility tree attributed to a
process, or mock, a stand-in that carries data of the caller. Reading what only
the other kind has is a fault.
-/

namespace ElementAgent

/-- A reference to an element of a user interface. -/
inductive Element where
  /-- A node and the process it is attributed to; `deviceRoot` marks the node of
  the whole screen. -/
  | native (pid : Pid) (node : Node) (deviceRoot : Bool)
  /-- A stand-in with data that nobody looks into. -/
  | mock (pid : Pid) (payload : List UInt8)
  deriving DecidableEq

namespace Element

inductive Kind where
  | native
  | mock
  deriving DecidableEq

def Kind.name : Kind → String
  | .native => "native"
  | .mock => "mock"

/-- Why there is no such element, or no such part of it. -/
inductive Fault where
  /-- Nobody owns the node. -/
  | unowned (node : Node)
  /-- The subsystem does not see the process. -/
  | invisible (pid : Pid)
  /-- Only elements of the expected kind have the part. -/
  | wrongKind (expected actual : Kind)
  deriving DecidableEq

def Fault.message : Fault → String
  | .unowned node => s!"cannot resolve owning process of {node.toText}"
  | .invisible pid => s!"process {pid} is not accessible"
  | .wrongKind expected actual =>
      s!"{expected.name}-only field read on a {actual.name} element"

def kind : Element → Kind
  | .native .. => .native
  | .mock .. => .mock

def pid : Element → Pid
  | .native pid _ _ => pid
  | .mock pid _ => pid

/-- The element spans the whole screen. -/
def isDeviceRoot : Element → Bool
  | .native _ _ deviceRoot => deviceRoot
  | .mock .. => false

/-- The node of a native element. -/
def node : Element → Except Fault Node
  | .native _ node _ => .ok node
  | .mock .. => .error (.wrongKind .native .mock)

/-- The data of a mock element. -/
def payload : Element → Except Fault (List UInt8)
  | .mock _ payload => .ok payload
  | .native .. => .error (.wrongKind .mock .native)

def toText : Element → String
  | .native _ node true => s!"device-root({node.toText})"
  | .native pid node false => s!"native(pid={pid}, {node.toText})"
  | .mock pid payload => s!"mock(pid={pid}, {payload.length} bytes)"

/-- The number of pairwise different elements of a list. -/
def distinct (es : List Element) : Nat := es.eraseDups.length

end Element

end ElementAgent

import ElementAgent.Message

/-!
# Outcomes of calls

What the caller of a lookup or a health check is told. `LookupReply.outcome`
holds a reply against the rule that it carries exactly one of a non-empty
bundle id and a failure.
-/

namespace ElementAgent

/-- Why a call has no result. -/
inductive CallError where
  /-- The agent answered with a failure. -/
  | agent (failure : Failure)
  /-- The agent's reply broke the rules of the exchange. -/
  | contract (text : String)
  /-- The connection failed before a reply came. -/
  | transport (text : String)
  deriving DecidableEq

def CallError.message : CallError → String
  | .agent failure => s!"agent error: {failure.toText}"
  | .contract text => s!"contract violation: {text}"
  | .transport text => s!"transport: {text}"

abbrev Outcome := Except CallError String

abbrev HealthOutcome := Except CallError HealthReport

/-- The ways a reply breaks the rules of the exchange. -/
inductive Violation where
  | emptyBundle
  | bothFields
  | neitherField
  | wrongKind
  deriving DecidableEq

def Violation.text : Violation → String
  | .emptyBundle => "empty bundle id in success reply"
  | .bothFields => "reply carries both a bundle id and an error"
  | .neitherField => "reply carries neither a bundle id nor an error"
  | .wrongKind => "reply kind does not match the call"

def Violation.error (v : Violation) : CallError := .contract v.text

namespace LookupReply

/-- What a reply says, if it carries a non-empty bundle id or a
failure and not both. -/
def verdict (r : LookupReply) : Except Violation (Except Failure String) :=
  match r.bundle, r.failure with
  | some b, none => if b.isEmpty then .error .emptyBundle else .ok (.ok b)
  | none, some f => .ok (.error f)
  | some _, some _ => .error .bothFields
  | none, none => .error .neitherField

/-- What the caller of a lookup is told of its reply. -/
def outcome (r : LookupReply) : Outcome :=
  match r.verdict with
  | .ok (.ok b) => .ok b
  | .ok (.error f) => .error (.agent f)
  | .error v => .error v.error

/-- A reply that breaks the rules of the exchange. -/
def isViolation (r : LookupReply) : Bool :=
  match r.verdict with
  | .ok _ => false
  | .error _ => true

end LookupReply

/-- The reasons for which a connection fails its calls. -/
inductive Disconnect where
  /-- The far end closed the connection, or it was closed before the call. -/
  | closed
  | undecodable
  | writeFailed
  | clientDropped
  /-- Nobody is left who could complete the call. -/
  | callDropped
  deriving DecidableEq

def Disconnect.text : Disconnect → String
  | .closed => "connection closed"
  | .undecodable => "undecodable reply"
  | .writeFailed => "connection write failed"
  | .clientDropped => "client dropped"
  | .callDropped => "call dropped without a reply"

def Disconnect.error (d : Disconnect) : CallError := .transport d.text

end ElementAgent

import ElementAgent.Message
import ElementAgent.MessagePack.Shape
import ElementAgent.MessagePack.Writer

/-!
# Bodies of frames

A message travels as a map with one entry, from the name of its variant to a map
of its fields. Writing gives one spelling; reading accepts every spelling of the
record shapes, variants by name or index, and ignores what follows the value.
Messages are read value by value, as shapes are.
-/

namespace ElementAgent.Wire

open MessagePack

/-! ## Writing -/

def encodeRequest : Request → List UInt8
  | .lookup id pid =>
    writeMap
      [("bundle_id",
        writeMap [("id", writeUnsigned id.toNat), ("pid", writeInteger pid.toInt)])]
  | .health id => writeMap [("health", writeMap [("id", writeUnsigned id.toNat)])]

def encodeFailure (f : Failure) : List UInt8 :=
  writeMap [("code", writeText f.code), ("message", writeText f.message)]

/-- The body of a reply. Absent fields are written as nil. -/
def encodeReply : Reply → List UInt8
  | .lookup r =>
    writeMap [("bundle_id", writeMap [
      ("id", writeUnsigned r.id.toNat),
      ("bundle_id", writeNullable writeText r.bundle),
      ("error", writeNullable encodeFailure r.failure)])]
  | .health r =>
    writeMap [("health", writeMap [
      ("id", writeUnsigned r.id.toNat),
      ("status", writeText r.status),
      ("version", writeText r.version)])]

/-! ## Records -/

variable {m : Type → Type} [Monad m] [Scanner m]

structure LookupDraft where
  id : Option UInt64
  pid : Option Pid

def lookupRecord : Record m LookupDraft Request where
  name := "BundleIdRequest"
  fields := [
    .of "id" LookupDraft.id (fun a d => { d with id := some a }) .unsigned64,
    .of "pid" LookupDraft.pid (fun a d => { d with pid := some a }) .signed32]
  blank := ⟨none, none⟩
  finish d := do return .lookup (← required "id" d.id) (← required "pid" d.pid)

structure HealthDraft where
  id : Option UInt64

def healthRecord : Record m HealthDraft Request where
  name := "HealthRequest"
  fields :=
    [.of "id" HealthDraft.id (fun a d => { d with id := some a }) .unsigned64]
  blank := ⟨none⟩
  finish d := do return .health (← required "id" d.id)

structure FailureDraft where
  code : Option String
  message : Option String

def failureRecord : Record m FailureDraft Failure where
  name := "AgentError"
  fields := [
    .of "code" FailureDraft.code (fun a d => { d with code := some a }) .text,
    .of "message" FailureDraft.message
      (fun a d => { d with message := some a }) .text]
  blank := ⟨none, none⟩
  finish d := do return ⟨← required "code" d.code, ← required "message" d.message⟩

structure LookupReplyDraft where
  id : Option UInt64
  bundle : Option (Option String)
  failure : Option (Option Failure)

/-- The record of a lookup's reply. A missing bundle id or
failure counts as nil. -/
def lookupReplyRecord : Record m LookupReplyDraft Reply where
  name := "BundleIdReply"
  fields := [
    .of "id" LookupReplyDraft.id (fun a d => { d with id := some a }) .unsigned64,
    .of "bundle_id" LookupReplyDraft.bundle (fun a d => { d with bundle := some a })
      (.nullable .text),
    .of "error" LookupReplyDraft.failure (fun a d => { d with failure := some a })
      (.nullable failureRecord.shape)]
  blank := ⟨none, none, none⟩
  finish d :=
    do return .lookup ⟨← required "id" d.id, d.bundle.join, d.failure.join⟩

structure ReportDraft where
  id : Option UInt64
  status : Option String
  version : Option String

def reportRecord : Record m ReportDraft Reply where
  name := "HealthReply"
  fields := [
    .of "id" ReportDraft.id (fun a d => { d with id := some a }) .unsigned64,
    .of "status" ReportDraft.status (fun a d => { d with status := some a }) .text,
    .of "version" ReportDraft.version
      (fun a d => { d with version := some a }) .text]
  blank := ⟨none, none, none⟩
  finish d := do
    return .health ⟨← required "id" d.id, ← required "status" d.status,
      ← required "version" d.version⟩

/-! ## Frames -/

def exchangeOfName? (name : List UInt8) : Option Exchange :=
  if name = Text.Utf8.encode "bundle_id" then some .lookup
  else if name = Text.Utf8.encode "health" then some .health
  else none

def exchangeOfIndex? : Nat → Option Exchange
  | 0 => some .lookup
  | 1 => some .health
  | _ => none

/-- The variant that a token names or whose index it is. -/
def variantOf : MessagePack.Token → Except Fault Exchange
  | .str name =>
    match Text.Utf8.decode name, exchangeOfName? name with
    | .error e, _ => .error (.utf8 e)
    | .ok _, some x => .ok x
    | .ok s, none => .error (.unknownVariant s)
  | .bin name =>
    match exchangeOfName? name with
    | some x => .ok x
    | none => .error (.unknownVariant (Text.Utf8.decodeLossy name))
  | .unsigned n =>
    match exchangeOfIndex? n with
    | some x => .ok x
    | none => .error (.wrongValue (.integer n) .variantIndex)
  | t => t.refuse .variantName

/-- How many containers of a message may be open at once, its own
map not counted. -/
def maxLevels : Nat := 1023

def readVariant : m Exchange := do check (variantOf (← leaf))

/-- Reads the entry of a message: a variant and the value of that variant. -/
def readEntry {α : Type} (lookup health : Shape m α) : m α := do
  match ← readVariant with
  | .lookup => lookup.read maxLevels
  | .health => health.read maxLevels

/-- What stands in the place of a message is no map; it may still be the
name of a variant. -/
def refuseBare {α : Type} (t : MessagePack.Token) : Except Fault α := do
  let _ ← variantOf t
  .error (.wrongType .bareVariant .variantValue)

/-- Reads a message: a map with one entry. -/
def readMessage {α : Type} (lookup health : Shape m α) : m α := do
  match ← token (· = .map 1) with
  | .map count =>
      if count = 1 then inside (readEntry lookup health) else fail (.length count)
  | t => check (refuseBare t)

def readRequest (m : Type → Type) [Monad m] [Scanner m] : m Request :=
  readMessage lookupRecord.shape healthRecord.shape

def readReply (m : Type → Type) [Monad m] [Scanner m] : m Reply :=
  readMessage lookupReplyRecord.shape reportRecord.shape

/-- The request of a body. -/
def decodeRequest (body : List UInt8) : Except Fault Request :=
  Prod.fst <$> readRequest Reader body

/-- The reply of a body. -/
def decodeReply (body : List UInt8) : Except Fault Reply :=
  Prod.fst <$> readReply Reader body

end ElementAgent.Wire

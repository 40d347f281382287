import ElementAgent.Proofs.MessagePack.Accounts
import ElementAgent.Proofs.Wire.WellFormed

/-!
# What decoding costs

Requests and replies are read value by value, so they can be read with a log of
these values. Main statement (`decoding_bounded`): whatever the bytes of a body
are and whatever numbers of entries they announce, decoding ends with a message or
a fault; the log of it, be it one or the other, goes through the values of the
body without a gap; every value takes at least one byte of the body and none lies
beyond it; and no more than `depthLimit` containers are ever open. Where one more
was to be opened, and only there, decoding fails for depth.
-/

namespace ElementAgent.Wire

open MessagePack

variable {α : Type} {body : List UInt8}

/-! ## Without the log -/

theorem erase_lookupRecord :
    (lookupRecord (m := Metered)).erase = lookupRecord := by
  simp [Record.erase, lookupRecord, Field.erase_of, Shape.erase_unsigned64,
    Shape.erase_signed32]

theorem erase_healthRecord :
    (healthRecord (m := Metered)).erase = healthRecord := by
  simp [Record.erase, healthRecord, Field.erase_of, Shape.erase_unsigned64]

theorem erase_failureRecord :
    (failureRecord (m := Metered)).erase = failureRecord := by
  simp [Record.erase, failureRecord, Field.erase_of, Shape.erase_text]

theorem erase_lookupReplyRecord :
    (lookupReplyRecord (m := Metered)).erase = lookupReplyRecord := by
  simp [Record.erase, lookupReplyRecord, Field.erase_of, Shape.erase_unsigned64,
    Shape.erase_text, Shape.erase_nullable, Record.erase_shape,
    ← erase_failureRecord]

theorem erase_reportRecord :
    (reportRecord (m := Metered)).erase = reportRecord := by
  simp [Record.erase, reportRecord, Field.erase_of, Shape.erase_unsigned64,
    Shape.erase_text]

theorem erase_readVariant : (readVariant : Metered Exchange).erase = readVariant :=
  Metered.erase_bind _ _

theorem erase_readEntry (lookup health : Shape Metered α) :
    (readEntry lookup health).erase = readEntry lookup.erase health.erase := by
  unfold readEntry
  rw [Metered.erase_bind, erase_readVariant]
  congr
  funext x
  cases x <;> rfl

theorem erase_readMessage (lookup health : Shape Metered α) :
    (readMessage lookup health).erase = readMessage lookup.erase health.erase := by
  unfold readMessage
  rw [Metered.erase_bind, Metered.erase_token]
  congr
  funext t
  cases t with
  | map count =>
      dsimp only
      split_ifs
      · exact erase_readEntry lookup health
      · rfl
  | _ => rfl

theorem erase_readRequest : (readRequest Metered).erase = readRequest Reader := by
  unfold readRequest
  rw [erase_readMessage, Record.erase_shape, Record.erase_shape, erase_lookupRecord,
    erase_healthRecord]

theorem erase_readReply : (readReply Metered).erase = readReply Reader := by
  unfold readReply
  rw [erase_readMessage, Record.erase_shape, Record.erase_shape,
    erase_lookupReplyRecord, erase_reportRecord]

/-! ## Records -/

theorem isAccounted_lookupRecord : (lookupRecord (m := Metered)).IsAccounted where
  fields := forall_of_two (Shape.isAccounted_unsigned64.field _ _ _)
    (Shape.isAccounted_signed32.field _ _ _)
  finish := by rintro ⟨_ | id, _ | pid⟩ ⟨⟩

theorem isAccounted_healthRecord : (healthRecord (m := Metered)).IsAccounted where
  fields := List.forall_mem_singleton.mpr (Shape.isAccounted_unsigned64.field _ _ _)
  finish := by rintro ⟨_ | id⟩ ⟨⟩

theorem isAccounted_failureRecord : (failureRecord (m := Metered)).IsAccounted where
  fields := forall_of_two (Shape.isAccounted_text.field _ _ _)
    (Shape.isAccounted_text.field _ _ _)
  finish := by rintro ⟨_ | code, _ | message⟩ ⟨⟩

theorem isAccounted_lookupReplyRecord :
    (lookupReplyRecord (m := Metered)).IsAccounted where
  fields := forall_of_three (Shape.isAccounted_unsigned64.field _ _ _)
    (Shape.isAccounted_text.nullable.field _ _ _)
    ((Record.isAccounted_shape isAccounted_failureRecord).nullable.field _ _ _)
  finish := by rintro ⟨_ | id, bundle, failure⟩ ⟨⟩

theorem isAccounted_reportRecord : (reportRecord (m := Metered)).IsAccounted where
  fields := forall_of_three (Shape.isAccounted_unsigned64.field _ _ _)
    (Shape.isAccounted_text.field _ _ _) (Shape.isAccounted_text.field _ _ _)
  finish := by rintro ⟨_ | id, _ | status, _ | version⟩ ⟨⟩

/-! ## Messages -/

/-- How many containers may be open at once, a message's own map among them. -/
def depthLimit : Nat := maxLevels + 1

/-- What is no map is refused, be it the name of a variant or not. -/
theorem isPlain_refuseBare : IsPlain (refuseBare (α := α)) where
  scalar {t a} found := absurd found (refuseBare_ne_ok t a)
  shallow t := by
    have other := isPlain_variantOf.shallow t
    unfold refuseBare
    cases named : variantOf t with
    | ok x => exact fun deep => nomatch deep
    | error e =>
        rw [named] at other
        exact fun deep => other (congrArg Except.error (Except.error.inj deep))

/-- The entry of a message is two values. -/
theorem accounts_readEntry {lookup health : Shape Metered α}
    (lookups : lookup.IsAccounted) (checks : health.IsAccounted)
    (bytes : List UInt8) :
    Accounts maxLevels 2 bytes (readEntry lookup health bytes) := by
  refine .bind (n := 1) (k := 1) (.leaf isPlain_variantOf) fun x rest _ => ?_
  cases x with
  | lookup => exact lookups.read maxLevels rest
  | health => exact checks.read maxLevels rest

theorem accounts_readMessage {lookup health : Shape Metered α}
    (lookups : lookup.IsAccounted) (checks : health.IsAccounted)
    (bytes : List UInt8) :
    Accounts depthLimit 1 bytes (readMessage lookup health bytes) := by
  refine .token fun t rest token => ?_
  cases t with
  | map count =>
      by_cases one : count = 1
      · subst one
        exact .container token rfl nofun (accounts_readEntry lookups checks rest)
      · simp only [if_neg one]
        exact .broken (ne_nil_of_token token) (by simp [one])
  | _ => exact .told isPlain_refuseBare token

/-! ## Decoding -/

/-- A body is read with a log as it is read without one, and no more is done than
it has bytes for. -/
structure IsBounded (read : ∀ (m : Type → Type) [Monad m] [Scanner m], m α)
    (body : List UInt8) : Prop where
  /-- The log changes nothing. -/
  same : (read Metered body).1 = read Reader body
  /-- Reading ends with a message and with what is left behind it, or
  with a fault. -/
  ends : (∃ message rest, read Reader body = .ok (message, rest) ∧ rest <:+ body) ∨
    ∃ fault, read Reader body = .error fault
  /-- The log has all values of what is read and no others: those of one value,
  which stands in front of what is left, or of as much of it as is read before
  reading fails. -/
  complete : Walk 0 1 body (read Metered body).2 (restOf (read Reader body))
  /-- Every value takes at least one byte before the next one begins. -/
  falling : (read Metered body).2.Pairwise fun v w => w.left < v.left
  /-- Every value begins in the body, in front of what is left. -/
  inside : ∀ v ∈ (read Metered body).2,
    bytesLeft (restOf (read Reader body)) < v.left ∧ v.left ≤ body.length
  /-- There are no more values than bytes. -/
  few : (read Metered body).2.length + bytesLeft (restOf (read Reader body)) ≤
    body.length
  /-- No more containers are open than may be. -/
  shallow : ∀ v ∈ (read Metered body).2, v.depth ≤ depthLimit
  /-- Reading fails for depth exactly where one more container was
  to be opened. -/
  deep : read Reader body = .error .tooDeep ↔
    ∃ v ∈ (read Metered body).2, v.depth = depthLimit ∧ v.opens = true

theorem isBounded_of_accounts
    {read : ∀ (m : Type → Type) [Monad m] [Scanner m], m α}
    (same : (read Metered).erase = read Reader)
    (h : Accounts depthLimit 1 body (read Metered body)) : IsBounded read body := by
  have result : (read Metered body).1 = read Reader body := congrFun same body
  have walk := h.walk
  have deep := h.deep
  rw [result] at walk deep
  refine ⟨result, ?_, walk, walk.spaced.falling, walk.spaced.bounds,
    walk.spaced.length_add_le walk.bytesLeft_le, h.shallow, deep⟩
  cases out : read Reader body with
  | error fault => exact .inr ⟨fault, rfl⟩
  | ok found =>
      obtain ⟨message, rest⟩ := found
      exact .inl ⟨message, rest, rfl, walk.suffix (congrArg restOf out)⟩

/-- A health request that announces 2^32 - 1 fields and has one: five values, and
then there are no more bytes. -/
example :
    (readRequest Metered [0x81, 0x01, 0xdf, 0xff, 0xff, 0xff, 0xff, 0x00, 0x07]).2 =
    [⟨9, 0, true⟩, ⟨8, 1, false⟩, ⟨7, 1, true⟩, ⟨2, 2, false⟩, ⟨1, 2, false⟩] := by
  decide +kernel

end ElementAgent.Wire

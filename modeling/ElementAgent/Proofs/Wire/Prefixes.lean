import ElementAgent.Proofs.MessagePack.Entries
import ElementAgent.Proofs.MessagePack.Locality
import ElementAgent.Proofs.Wire.RoundTrip

/-!
# Bodies are decided by their beginnings

A body is read from the front, and no further than its value goes. Main statement
(`decided_by_beginning`): what is made of a body is made of it whatever follows,
be it a message or a fault, unless bytes were wanting; and bytes are wanting in
every beginning of the body of a message, so that none is taken for a message or
for anything else.
-/

namespace ElementAgent.Wire

open MessagePack

variable {α : Type}

/-! ## Readers of messages -/

theorem isLocal_readEntry {lookup health : Shape Reader α}
    (lookups : lookup.IsLocal)
    (checks : health.IsLocal) : IsLocal (readEntry lookup health) := by
  have variant : IsLocal readVariant :=
    isLocal_read.bind fun t => .lift (variantOf t)
  refine variant.bind fun x => ?_
  cases x with
  | lookup => exact lookups maxLevels
  | health => exact checks maxLevels

theorem isLocal_readMessage {lookup health : Shape Reader α}
    (lookups : lookup.IsLocal)
    (checks : health.IsLocal) : IsLocal (readMessage lookup health) := by
  refine isLocal_read.bind fun t => ?_
  cases t with
  | map count =>
      dsimp only
      split_ifs
      · exact isLocal_readEntry lookups checks
      · exact .lift _
  | _ => exact .lift _

theorem isLocal_readRequest : IsLocal (readRequest Reader) :=
  isLocal_readMessage
    (Record.isLocal (forall_of_two (isLocal_unsigned64.field _ _ _)
      (isLocal_signed32.field _ _ _)))
    (Record.isLocal
      (List.forall_mem_singleton.mpr (isLocal_unsigned64.field _ _ _)))

theorem isLocal_failure : failureRecord.shape.IsLocal :=
  Record.isLocal
    (forall_of_two (isLocal_text.field _ _ _) (isLocal_text.field _ _ _))

theorem isLocal_readReply : IsLocal (readReply Reader) :=
  isLocal_readMessage
    (Record.isLocal (forall_of_three (isLocal_unsigned64.field _ _ _)
      (isLocal_text.nullable.field _ _ _)
      (isLocal_failure.nullable.field _ _ _)))
    (Record.isLocal
      (forall_of_three (isLocal_unsigned64.field _ _ _) (isLocal_text.field _ _ _)
      (isLocal_text.field _ _ _)))

/-! ## Beginnings -/

/-- A beginning of what a local reader reads is too short for it. -/
theorem isCut_of_prefix {p : Reader α} {a : α} {front body : List UInt8}
    (local_ : IsLocal p) (reads : Reads p body a)
    (begins : front <+: body) (strict : front ≠ body) :
    IsCut (Prod.fst <$> p front) := by
  obtain ⟨back, rfl⟩ := begins
  have more : back ≠ [] := by
    rintro rfl
    exact strict (List.append_nil front).symm
  obtain ⟨e, failed, cut⟩ := local_.isCut_of_reads reads more
  exact ⟨e, by rw [failed]; rfl, cut⟩

/-- Whatever follows a body, it is read as the same message or fails for the
same reason, unless it was too short. Every beginning of the body of a message
is too short. (A text of 4 GiB has no body: its length cannot be written. A
frame holds far less.) -/
theorem decided_by_beginning :
    (∀ body, ¬IsCut (decodeRequest body) →
      ∀ more, decodeRequest (body ++ more) = decodeRequest body) ∧
    (∀ body, ¬IsCut (decodeReply body) →
      ∀ more, decodeReply (body ++ more) = decodeReply body) ∧
    (∀ r front, front <+: encodeRequest r → front ≠ encodeRequest r →
      IsCut (decodeRequest front)) ∧
    ∀ r, (∀ t ∈ replyTexts r, IsWritable t) →
      ∀ front, front <+: encodeReply r → front ≠ encodeReply r →
        IsCut (decodeReply front) :=
  ⟨fun _ decided => isLocal_readRequest.fst_append decided,
    fun _ decided => isLocal_readReply.fst_append decided,
    fun r _ => isCut_of_prefix isLocal_readRequest (reads_encodeRequest r),
    fun r writable _ =>
      isCut_of_prefix isLocal_readReply (reads_encodeReply r writable)⟩

/-- A request whose id is the one byte that starts no value. -/
def garbledRequest : List UInt8 := [0x81, 0x00, 0x82, 0x00, 0xc1]

/-- A reply whose failure has a message that is a number. -/
def garbledReply : List UInt8 :=
  [0x81, 0x00, 0x82, 0x02, 0x81, 0x01, 0xcd, 0x01, 0x00]

/-- The garbled bodies stay garbled in their own ways, whatever follows them, and
bodies that are cut inside a number and inside a text are too short. -/
theorem garbled_decided :
    (∀ more, decodeRequest (garbledRequest ++ more) = .error (.marker .reserved)) ∧
    (∀ more, decodeReply (garbledReply ++ more) =
      .error (.wrongType (.integer 256) .text)) ∧
    IsCut (decodeRequest ((encodeRequest (.lookup 300 (-7))).take 17)) ∧
    IsCut (decodeReply
      ((encodeReply (.lookup ⟨7, none, some ⟨"timeout", "b"⟩⟩)).take 42)) := by
  have request : decodeRequest garbledRequest = .error (.marker .reserved) := by
    decide
  have reply : decodeReply garbledReply =
      .error (.wrongType (.integer 256) .text) := by decide
  refine ⟨fun more => ?_, fun more => ?_, ?_, ?_⟩
  · rw [decided_by_beginning.1 _ ?_ more, request]
    rintro ⟨e, failed, cut⟩
    cases request.symm.trans failed
    cases cut
  · rw [decided_by_beginning.2.1 _ ?_ more, reply]
    rintro ⟨e, failed, cut⟩
    cases reply.symm.trans failed
    cases cut
  · exact decided_by_beginning.2.2.1 _ _ (List.take_prefix ..) (by decide)
  · have short : ∀ t ∈ ["timeout", "b"], (Text.Utf8.encode t).length <
        byteRange 4 := by decide
    exact decided_by_beginning.2.2.2
      (.lookup ⟨7, none, some ⟨"timeout", "b"⟩⟩) short _
      (List.take_prefix ..) (by decide)

end ElementAgent.Wire

import ElementAgent.Proofs.MessagePack.Reads
import ElementAgent.Proofs.Wire.Stream
import ElementAgent.Wire.Format
import Mathlib.Data.List.Basic

/-!
# Messages survive the wire

Main statements:

* **requests**: the body of a request is read as that request, whatever follows it
  (`reads_encodeRequest`), and is never too long (`length_encodeRequest`);
* **replies**: so is the body of a reply whose texts have lengths that can be
  written (`reads_encodeReply`), as they have in a body that is not too long
  (`decodeReply_encodeReply`);
* **crossing**: what one end writes for a message, the other end reads as that
  message, and it touches nothing else (`messages_cross`).
-/

namespace ElementAgent.Wire

open MessagePack
open Text (Utf8.encode)

/-! ## Lengths -/

theorem length_writeUnsigned (n : Nat) : (writeUnsigned n).length ≤ 9 := by
  unfold writeUnsigned
  split_ifs <;> simp

theorem length_writeInteger (n : Int) : (writeInteger n).length ≤ 9 := by
  unfold writeInteger
  split_ifs
  · exact length_writeUnsigned _
  all_goals simp

/-- A text is no longer than its spelling. -/
theorem length_encode_le (t : String) :
    (Utf8.encode t).length ≤ (writeText t).length := by
  unfold writeText
  rw [List.length_append]
  omega

/-- A value is no longer than a map that it is in. -/
theorem length_le_writeMap {entries : List (String × List UInt8)} (name : String)
    {value : List UInt8} (listed : (name, value) ∈ entries) :
    value.length ≤ (writeMap entries).length := by
  have inside : (writeText name ++ value).Sublist
      (entries.flatMap fun e => writeText e.1 ++ e.2) :=
    List.sublist_flatten_of_mem (List.mem_map.mpr ⟨_, listed, rfl⟩)
  have shorter := inside.length_le
  unfold writeMap
  rw [List.length_append] at *
  omega

/-- A request is never too long. -/
theorem length_encodeRequest (r : Request) :
    (encodeRequest r).length ≤ maxBody := by
  cases r with
  | lookup id pid =>
      have number := length_writeUnsigned id.toNat
      have process := length_writeInteger pid.toInt
      have keys : (writeText "bundle_id").length + (writeText "id").length +
          (writeText "pid").length = 17 := by decide
      simp only [encodeRequest, writeMap, List.flatMap_cons, List.flatMap_nil,
        List.length_append, List.length_cons, List.length_nil, maxBody, mapHeader]
      simp only [Nat.reduceAdd, Nat.reduceLT, if_true, List.length_cons,
        List.length_nil]
      omega
  | health id =>
      have number := length_writeUnsigned id.toNat
      have keys : (writeText "health").length + (writeText "id").length = 10 := by
        decide
      simp only [encodeRequest, writeMap, List.flatMap_cons, List.flatMap_nil,
        List.length_append, List.length_cons, List.length_nil, maxBody, mapHeader]
      simp only [Nat.reduceAdd, Nat.reduceLT, if_true, List.length_cons,
        List.length_nil]
      omega

/-! ## Variants -/

/-- A message is its variant's name and the value of that variant. -/
theorem reads_message {α : Type} {lookup health : Shape Reader α} {x : Exchange}
    {name : String} {value : List UInt8} {a : α}
    (named : exchangeOfName? (Utf8.encode name) = some x)
    (short : (Utf8.encode name).length < 0x20)
    (read : Reads ((match x with | .lookup => lookup | .health => health).read
      maxLevels) value a) :
    Reads (readMessage lookup health) (writeMap [(name, value)]) a := by
  have header : writeMap [(name, value)] =
      [0x81] ++ ([UInt8.ofNat (0xa0 + (Utf8.encode name).length)] ++
        Utf8.encode name ++ value) := by
    simp [writeMap, mapHeader, writeText, textHeader, short]
  have head : Reads MessagePack.Token.read [0x81] (.map 1) := fun _ => rfl
  have token : Reads MessagePack.Token.read
      ([UInt8.ofNat (0xa0 + (Utf8.encode name).length)] ++ Utf8.encode name)
      (.str (Utf8.encode name)) := by
    refine (reads_takeMarker _).bind ?_
    rw [ofByte_fixStr _ short]
    exact (reads_takeBytes .cutContent rfl).map MessagePack.Token.str
  have key : Reads readVariant
      ([UInt8.ofNat (0xa0 + (Utf8.encode name).length)] ++ Utf8.encode name) x := by
    refine token.bind_pure ?_
    simp only [variantOf, named, Text.Utf8.decode_encode]
    exact .pure _
  have entry : Reads (readEntry lookup health)
      ([UInt8.ofNat (0xa0 + (Utf8.encode name).length)] ++ Utf8.encode name ++
        value) a := by
    refine key.bind ?_
    cases x <;> exact read
  rw [header]
  exact head.bind entry

/-! ## Requests -/

theorem reads_encodeRequest (r : Request) :
    Reads (readRequest Reader) (encodeRequest r) r := by
  cases r with
  | lookup id pid =>
      refine reads_message (x := .lookup) (by decide) (by decide) ?_
      refine reads_record (d := ⟨some id, some pid⟩) 2 (by decide) ?_ rfl
      refine reads_entry "id" (by decide) rfl rfl ((reads_unsigned64 _ id).map _) ?_
      refine reads_entry "pid" (by decide) rfl rfl ((reads_signed32 _ pid).map _) ?_
      exact .pure _
  | health id =>
      refine reads_message (x := .health) (by decide) (by decide) ?_
      refine reads_record (d := ⟨some id⟩) 1 (by decide) ?_ rfl
      refine reads_entry "id" (by decide) rfl rfl ((reads_unsigned64 _ id).map _) ?_
      exact .pure _

theorem decodeRequest_encodeRequest (r : Request) :
    decodeRequest (encodeRequest r) = .ok r := by
  have read := reads_encodeRequest r []
  rw [List.append_nil] at read
  rw [decodeRequest, read]
  rfl

/-! ## Replies -/

/-- The length of a text can be written. -/
def IsWritable (t : String) : Prop := (Utf8.encode t).length < byteRange 4

theorem reads_encodeFailure (levels : Nat) {f : Failure} (code : IsWritable f.code)
    (message : IsWritable f.message) :
    Reads (failureRecord.shape.read (levels + 1)) (encodeFailure f) f := by
  refine reads_record (d := ⟨some f.code, some f.message⟩) 2 (by decide) ?_ rfl
  refine reads_entry "code" (by decide) rfl rfl ((reads_text _ code).map _) ?_
  refine reads_entry "message" (by decide) rfl rfl ((reads_text _ message).map _) ?_
  exact .pure _

/-- No text starts like nil. -/
theorem writeText_marked (t : String) :
    ∃ b bs, writeText t = b :: bs ∧ Marker.ofByte b ≠ .null := by
  unfold writeText textHeader
  simp only
  split_ifs with one
  · refine ⟨_, _, rfl, ?_⟩
    rw [ofByte_fixStr _ one]
    exact Marker.noConfusion
  all_goals exact ⟨_, _, rfl, by decide⟩

theorem encodeFailure_marked (f : Failure) :
    ∃ b bs, encodeFailure f = b :: bs ∧ Marker.ofByte b ≠ .null :=
  ⟨0x82, _, rfl, by decide⟩

/-- The texts of a reply. -/
def replyTexts : Reply → List String
  | .lookup r =>
      r.bundle.toList ++ r.failure.toList.flatMap fun f => [f.code, f.message]
  | .health r => [r.status, r.version]

theorem reads_encodeReply (r : Reply)
    (writable : ∀ t ∈ replyTexts r, IsWritable t) :
    Reads (readReply Reader) (encodeReply r) r := by
  cases r with
  | lookup r =>
      obtain ⟨id, bundle, failure⟩ := r
      have bundleRead (levels : Nat) : Reads (Shape.text.nullable.read levels)
          (writeNullable writeText bundle) bundle := by
        refine reads_nullable bundle (fun t given => reads_text _ (writable t ?_))
          fun t _ => writeText_marked t
        simp [replyTexts, Option.mem_def.mp given]
      have failureRead (levels : Nat) :
          Reads (failureRecord.shape.nullable.read (levels + 1))
          (writeNullable encodeFailure failure) failure := by
        refine reads_nullable failure
          (fun f given => reads_encodeFailure _ (writable _ ?_)
          (writable _ ?_)) fun f _ => encodeFailure_marked f
        · simp [replyTexts, Option.mem_def.mp given]
        · simp [replyTexts, Option.mem_def.mp given]
      refine reads_message (x := .lookup) (by decide) (by decide) ?_
      refine reads_record (d := ⟨some id, some bundle, some failure⟩) 3
        (by decide) ?_ rfl
      refine reads_entry "id" (by decide) rfl rfl ((reads_unsigned64 _ id).map _) ?_
      refine reads_entry "bundle_id" (by decide) rfl rfl ((bundleRead _).map _) ?_
      refine reads_entry "error" (by decide) rfl rfl ((failureRead _).map _) ?_
      exact .pure _
  | health r =>
      obtain ⟨id, status, version⟩ := r
      refine reads_message (x := .health) (by decide) (by decide) ?_
      refine reads_record (d := ⟨some id, some status, some version⟩) 3
        (by decide) ?_ rfl
      refine reads_entry "id" (by decide) rfl rfl ((reads_unsigned64 _ id).map _) ?_
      refine reads_entry "status" (by decide) rfl rfl
        ((reads_text _ (writable _ (by simp [replyTexts]))).map _) ?_
      refine reads_entry "version" (by decide) rfl rfl
        ((reads_text _ (writable _ (by simp [replyTexts]))).map _) ?_
      exact .pure _

/-- A body holds the texts of its reply. -/
theorem length_replyText {r : Reply} {t : String} (listed : t ∈ replyTexts r) :
    (Utf8.encode t).length ≤ (encodeReply r).length := by
  refine Nat.le_trans (length_encode_le t) ?_
  cases r with
  | lookup r =>
      refine Nat.le_trans ?_ (length_le_writeMap _ (List.mem_singleton.mpr rfl))
      rcases List.mem_append.mp listed with given | given
      · have value : writeNullable writeText r.bundle = writeText t := by
          rw [Option.mem_toList.mp given]
          rfl
        rw [← value]
        exact length_le_writeMap "bundle_id" (by simp)
      · obtain ⟨f, given, named⟩ := List.mem_flatMap.mp given
        have value : writeNullable encodeFailure r.failure = encodeFailure f := by
          rw [Option.mem_toList.mp given]
          rfl
        have part : ("error", encodeFailure f) ∈ [("id", writeUnsigned r.id.toNat),
            ("bundle_id", writeNullable writeText r.bundle),
            ("error", writeNullable encodeFailure r.failure)] := by
          simp [value]
        refine Nat.le_trans ?_ (length_le_writeMap "error" part)
        rcases List.mem_pair.mp named with rfl | rfl
        · exact length_le_writeMap "code" (by simp)
        · exact length_le_writeMap "message" (by simp)
  | health r =>
      refine Nat.le_trans ?_ (length_le_writeMap _ (List.mem_singleton.mpr rfl))
      rcases List.mem_pair.mp listed with rfl | rfl
      · exact length_le_writeMap "status" (by simp)
      · exact length_le_writeMap "version" (by simp)

theorem decodeReply_encodeReply {r : Reply}
    (fits : (encodeReply r).length ≤ maxBody) :
    decodeReply (encodeReply r) = .ok r := by
  have writable : ∀ t ∈ replyTexts r, IsWritable t := by
    intro t listed
    have small : maxBody < byteRange 4 := by decide
    exact Nat.lt_of_le_of_lt (Nat.le_trans (length_replyText listed) fits) small
  have read := reads_encodeReply r writable []
  rw [List.append_nil] at read
  rw [decodeReply, read]
  rfl

/-! ## Crossing -/

/-- What one end appends for a message to whatever it has to write, the other end
reads as that message, and leaves whatever follows. -/
def Crosses {α : Type} (encode : α → List UInt8)
    (decode : List UInt8 → Except Fault α) (a : α) :
    Prop :=
  ∃ bytes, (∀ buffer, appendFrame buffer (encode a) = .ok (buffer ++ bytes)) ∧
    ∀ rest, decodeNext decode .fresh (bytes ++ rest) = (.message a, .fresh, rest)

/-- A message crosses if its body is not too long and can be read back. -/
theorem crosses_of_decode {α : Type} {encode : α → List UInt8}
    {decode : List UInt8 → Except Fault α} {a : α}
    (fits : (encode a).length ≤ maxBody)
    (back : decode (encode a) = .ok a) :
    Crosses encode decode a := by
  refine ⟨frame (encode a), fun buffer => appendFrame_eq fits, fun rest => ?_⟩
  rw [decodeNext, Splitter.next_frame fits]
  simp only [back]

/-- Every request crosses from controller to agent, and every reply whose body is
not too long crosses back. -/
theorem messages_cross :
    (∀ r : Request, Crosses encodeRequest decodeRequest r) ∧
      ∀ r : Reply, (encodeReply r).length ≤ maxBody →
        Crosses encodeReply decodeReply r :=
  ⟨fun r => crosses_of_decode (length_encodeRequest r)
    (decodeRequest_encodeRequest r),
    fun _ fits => crosses_of_decode fits (decodeReply_encodeReply fits)⟩

/-- A reply that breaks the rules: it carries both a bundle, whose 32 bytes need
the second form of a text, and a failure without a code. -/
def overfull : Reply :=
  .lookup ⟨0xFFFFFFFFFFFFFFFF, some "😀😀😀😀😀😀😀😀", some ⟨"", "é\x00"⟩⟩

/-- It crosses all the same. -/
theorem overfull_crosses :
    (encodeReply overfull).length ≤ maxBody ∧
    Crosses encodeReply decodeReply overfull := by
  have fits : (encodeReply overfull).length ≤ maxBody := by decide +kernel
  exact ⟨fits, messages_cross.2 overfull fits⟩

end ElementAgent.Wire

import ElementAgent.Proofs.MessagePack.Entries
import ElementAgent.Proofs.Wire.RoundTrip

/-!
# Spellings of messages

The body of a message may have the entries of its maps in any order, entries that
its records do not know, and none for what is nil (`SpellsRequest`,
`SpellsReply`). Main statement (`spellings_read`): every such body is read as the
message, and no body is read in which two keys of a record name the same field.
-/

namespace ElementAgent.Wire

open MessagePack
open Text (Utf8.encode)

/-! ## The maps of messages -/

/-- A spelling of a failure, inside of which no more than `depth` containers are
open at once. -/
def SpellsFailure (depth : Nat) (f : Failure) : List UInt8 → Prop :=
  IsMapOf failureRecord.fields depth
    [("code", writeText f.code), ("message", writeText f.message)]

/-- A spelling of a failure that may be missing. -/
def SpellsFailure? (depth : Nat) : Option Failure → List UInt8 → Prop
  | none, bytes => bytes = writeNil
  | some f, bytes => SpellsFailure depth f bytes

/-- The containers that may be open in the value of an entry: a message's own map
and the map of its record are open around it, and the map of the failure is open
around the entries of a failure. -/
def entryLevels : Nat := maxLevels - 1

/-- A body of a request. -/
inductive SpellsRequest : Request → List UInt8 → Prop
  | lookup {id : UInt64} {pid : Pid} {value : List UInt8}
      (map : IsMapOf lookupRecord.fields entryLevels
        [("id", writeUnsigned id.toNat), ("pid", writeInteger pid.toInt)] value) :
      SpellsRequest (.lookup id pid) (writeMap [("bundle_id", value)])
  | health {id : UInt64} {value : List UInt8}
      (map : IsMapOf healthRecord.fields entryLevels
        [("id", writeUnsigned id.toNat)] value) :
      SpellsRequest (.health id) (writeMap [("health", value)])

/-- A body of a reply. -/
inductive SpellsReply : Reply → List UInt8 → Prop
  | lookup {r : LookupReply} {failure value : List UInt8}
      (error : SpellsFailure? (entryLevels - 1) r.failure failure)
      (map : IsMapOf lookupReplyRecord.fields entryLevels
        [("id", writeUnsigned r.id.toNat),
          ("bundle_id", writeNullable writeText r.bundle),
          ("error", failure)] value) :
      SpellsReply (.lookup r) (writeMap [("bundle_id", value)])
  | health {r : HealthReport} {value : List UInt8}
      (map : IsMapOf reportRecord.fields entryLevels
        [("id", writeUnsigned r.id.toNat), ("status", writeText r.status),
          ("version", writeText r.version)]
        value) :
      SpellsReply (.health r) (writeMap [("health", value)])

/-! ## Nil is no other value -/

variable {levels : Nat} {seen : Finset String} {name : String} {value : List UInt8}

/-- Bytes of which a shape that does not know nil reads a value are not nil. -/
theorem ne_nil_of_reads {α : Type} {s : Shape Reader α} {a : α}
    (read : Reads (s.read levels) value a)
    (strict : ∀ out, s.read levels writeNil ≠ .ok out) : value ≠ writeNil := by
  rintro rfl
  have value := read []
  rw [List.append_nil] at value
  exact strict _ value

theorem writeUnsigned_ne_nil (id : UInt64) : writeUnsigned id.toNat ≠ writeNil :=
  ne_nil_of_reads (reads_unsigned64 0 id) fun _ => by rintro ⟨⟩

theorem writeInteger_ne_nil (n : Int32) : writeInteger n.toInt ≠ writeNil :=
  ne_nil_of_reads (reads_signed32 0 n) fun _ => by rintro ⟨⟩

theorem writeText_ne_nil {t : String} (writable : IsWritable t) :
    writeText t ≠ writeNil :=
  ne_nil_of_reads (reads_text 0 writable) fun _ => by rintro ⟨⟩

/-- What is not nil is not missing. -/
theorem mem_of_ne_nil {wanted : List (String × List UInt8)}
    (missing : ∀ entry ∈ wanted, entry.1 ∉ seen → entry.2 = writeNil)
    (listed : (name, value) ∈ wanted)
    (ne : value ≠ writeNil) : name ∈ seen := by
  by_contra new
  exact ne (missing _ listed new)

/-! ## Any order -/

theorem fills_lookup (id : UInt64) (pid : Pid) :
    Fills lookupRecord levels
      [("id", writeUnsigned id.toNat), ("pid", writeInteger pid.toInt)]
      (fun seen => ⟨given seen "id" id, given seen "pid" pid⟩)
      (.lookup id pid) where
  distinct := show ["id", "pid"].Nodup by decide
  blank := rfl
  adds := by
    refine forall_of_two (fun seen new => ?_) fun seen new => ?_
    · refine .of (by decide) rfl (reads_unsigned64 _ id) (given_of_notMem new) ?_
      simp [given_insert, given_insert_of_ne]
    · refine .of (by decide) rfl (reads_signed32 _ pid) (given_of_notMem new) ?_
      simp [given_insert, given_insert_of_ne]
  done seen missing := by
    have id_ : "id" ∈ seen :=
      mem_of_ne_nil missing (by simp) (writeUnsigned_ne_nil id)
    have pid_ : "pid" ∈ seen :=
      mem_of_ne_nil missing (by simp) (writeInteger_ne_nil pid)
    simp only [given_of_mem id_, given_of_mem pid_]
    rfl

theorem fills_health (id : UInt64) :
    Fills healthRecord levels [("id", writeUnsigned id.toNat)]
      (fun seen => ⟨given seen "id" id⟩)
      (.health id) where
  distinct := show ["id"].Nodup by decide
  blank := rfl
  adds := by
    refine List.forall_mem_singleton.mpr fun seen new => ?_
    refine .of (by decide) rfl (reads_unsigned64 _ id) (given_of_notMem new) ?_
    simp [given_insert]
  done seen missing := by
    have id_ : "id" ∈ seen :=
      mem_of_ne_nil missing (by simp) (writeUnsigned_ne_nil id)
    simp only [given_of_mem id_]
    rfl

theorem fills_failure {f : Failure} (code : IsWritable f.code)
    (message : IsWritable f.message) :
    Fills failureRecord levels
      [("code", writeText f.code), ("message", writeText f.message)]
      (fun seen => ⟨given seen "code" f.code, given seen "message" f.message⟩)
      f where
  distinct := show ["code", "message"].Nodup by decide
  blank := rfl
  adds := by
    refine forall_of_two (fun seen new => ?_) fun seen new => ?_
    · refine .of (by decide) rfl (reads_text _ code) (given_of_notMem new) ?_
      simp [given_insert, given_insert_of_ne]
    · refine .of (by decide) rfl (reads_text _ message) (given_of_notMem new) ?_
      simp [given_insert, given_insert_of_ne]
  done seen missing := by
    have code_ : "code" ∈ seen :=
      mem_of_ne_nil missing (by simp) (writeText_ne_nil code)
    have message_ : "message" ∈ seen :=
      mem_of_ne_nil missing (by simp) (writeText_ne_nil message)
    simp only [given_of_mem code_, given_of_mem message_]
    rfl

theorem fills_report {r : HealthReport} (status : IsWritable r.status)
    (version : IsWritable r.version) :
    Fills reportRecord levels
      [("id", writeUnsigned r.id.toNat), ("status", writeText r.status),
        ("version", writeText r.version)]
      (fun seen => ⟨given seen "id" r.id, given seen "status" r.status,
        given seen "version" r.version⟩)
      (.health r) where
  distinct := show ["id", "status", "version"].Nodup by decide
  blank := rfl
  adds := by
    refine forall_of_three (fun seen new => ?_) (fun seen new => ?_)
      fun seen new => ?_
    · refine .of (by decide) rfl (reads_unsigned64 _ r.id) (given_of_notMem new) ?_
      simp [given_insert, given_insert_of_ne]
    · refine .of (by decide) rfl (reads_text _ status) (given_of_notMem new) ?_
      simp [given_insert, given_insert_of_ne]
    · refine .of (by decide) rfl (reads_text _ version) (given_of_notMem new) ?_
      simp [given_insert, given_insert_of_ne]
  done seen missing := by
    have id_ : "id" ∈ seen :=
      mem_of_ne_nil missing (by simp) (writeUnsigned_ne_nil r.id)
    have status_ : "status" ∈ seen :=
      mem_of_ne_nil missing (by simp) (writeText_ne_nil status)
    have version_ : "version" ∈ seen :=
      mem_of_ne_nil missing (by simp) (writeText_ne_nil version)
    simp only [given_of_mem id_, given_of_mem status_, given_of_mem version_]
    rfl

/-- A spelling of a failure is read as the failure. -/
theorem reads_spellsFailure {f : Failure} (code : IsWritable f.code)
    (message : IsWritable f.message) (spelled : SpellsFailure levels f value) :
    Reads (failureRecord.shape.read (levels + 1)) value f :=
  (fills_failure code message).reads_map spelled

/-- No map starts like nil. -/
theorem mapHeader_marked {n : Nat} (rest : List UInt8) :
    ∃ b bs, mapHeader n ++ rest = b :: bs ∧ Marker.ofByte b ≠ .null := by
  unfold mapHeader
  split_ifs with one
  · refine ⟨_, _, rfl, ?_⟩
    rw [ofByte_fixMap _ one]
    exact Marker.noConfusion
  all_goals exact ⟨_, _, rfl, by decide⟩

theorem reads_spellsFailure? {o : Option Failure}
    (writable : ∀ f ∈ o, IsWritable f.code ∧ IsWritable f.message)
    (spelled : SpellsFailure? levels o value) :
    Reads (failureRecord.shape.nullable.read (levels + 1)) value o := by
  cases o with
  | none =>
      obtain rfl : value = writeNil := spelled
      show Reads _ (writeNullable encodeFailure none) _
      exact reads_nullable none (fun _ => by rintro ⟨⟩) fun _ => by rintro ⟨⟩
  | some f =>
      obtain ⟨code, message⟩ := writable f rfl
      show Reads _ (writeNullable (fun _ => value) (some f)) _
      refine reads_nullable (some f) (fun g same => ?_) fun g same => ?_
      · cases same
        exact reads_spellsFailure code message spelled
      · cases spelled
        exact mapHeader_marked _

theorem fills_lookupReply {r : LookupReply} {failure : List UInt8}
    (bundle : ∀ t ∈ r.bundle, IsWritable t)
    (texts : ∀ f ∈ r.failure, IsWritable f.code ∧ IsWritable f.message)
    (spelled : SpellsFailure? levels r.failure failure) :
    Fills lookupReplyRecord (levels + 1)
      [("id", writeUnsigned r.id.toNat),
        ("bundle_id", writeNullable writeText r.bundle), ("error", failure)]
      (fun seen => ⟨given seen "id" r.id, given seen "bundle_id" r.bundle,
        given seen "error" r.failure⟩)
      (.lookup r) where
  distinct := show ["id", "bundle_id", "error"].Nodup by decide
  blank := rfl
  adds := by
    refine forall_of_three (fun seen new => ?_) (fun seen new => ?_)
      fun seen new => ?_
    · refine .of (by decide) rfl (reads_unsigned64 _ r.id) (given_of_notMem new) ?_
      simp [given_insert, given_insert_of_ne]
    · have read : Reads (Shape.text.nullable.read (levels + 1))
          (writeNullable writeText r.bundle) r.bundle :=
        reads_nullable r.bundle (fun t some => reads_text _ (bundle t some))
          fun t _ => writeText_marked t
      refine .of (by decide) rfl read (given_of_notMem new) ?_
      simp [given_insert, given_insert_of_ne]
    · refine .of (by decide) rfl (reads_spellsFailure? texts spelled)
        (given_of_notMem new) ?_
      simp [given_insert, given_insert_of_ne]
  done seen missing := by
    have id_ : "id" ∈ seen :=
      mem_of_ne_nil missing (by simp) (writeUnsigned_ne_nil r.id)
    have bundle_ : "bundle_id" ∉ seen → r.bundle = none := by
      intro new
      have nil :=
        missing ("bundle_id", writeNullable writeText r.bundle) (by simp) new
      cases given : r.bundle with
      | none => rfl
      | some t =>
          rw [given] at nil
          exact absurd nil (writeText_ne_nil (bundle t given))
    have failure_ : "error" ∉ seen → r.failure = none := by
      intro new
      have nil := missing ("error", failure) (by simp) new
      cases given : r.failure with
      | none => rfl
      | some f =>
          obtain ⟨code, message⟩ := texts f given
          rw [given] at spelled
          have read := reads_spellsFailure code message spelled
          exact absurd nil (ne_nil_of_reads read fun _ => by rintro ⟨⟩)
    simp only [lookupReplyRecord, given_of_mem id_, join_given bundle_,
      join_given failure_]
    rfl

/-- Every spelling of a request is read as the request. -/
theorem decodeRequest_of_spells {r : Request} {body : List UInt8}
    (spelled : SpellsRequest r body) :
    decodeRequest body = .ok r := by
  have read : Reads (readRequest Reader) body r := by
    cases spelled with
    | lookup map =>
        exact reads_message (x := .lookup) (by decide) (by decide)
          ((fills_lookup _ _).reads_map map)
    | health map =>
        exact reads_message (x := .health) (by decide) (by decide)
          ((fills_health _).reads_map map)
  have whole := read []
  rw [List.append_nil] at whole
  rw [decodeRequest, whole]
  rfl

/-- Every spelling of a reply whose texts can be written is read as the reply. -/
theorem decodeReply_of_spells {r : Reply} {body : List UInt8}
    (writable : ∀ t ∈ replyTexts r, IsWritable t)
    (spelled : SpellsReply r body) : decodeReply body = .ok r := by
  have read : Reads (readReply Reader) body r := by
    cases spelled with
    | @lookup r failure value error map =>
        have bundle : ∀ t ∈ r.bundle, IsWritable t := fun t some =>
          writable t (by simp [replyTexts, Option.mem_def.mp some])
        have texts : ∀ f ∈ r.failure, IsWritable f.code ∧
            IsWritable f.message := fun f some =>
          ⟨writable _ (by simp [replyTexts, Option.mem_def.mp some]),
            writable _ (by simp [replyTexts, Option.mem_def.mp some])⟩
        exact reads_message (x := .lookup) (by decide) (by decide)
          ((fills_lookupReply bundle texts error).reads_map map)
    | @health r value map =>
        exact reads_message (x := .health) (by decide) (by decide)
          ((fills_report (writable _ (by simp [replyTexts]))
            (writable _ (by simp [replyTexts]))).reads_map map)
  have whole := read []
  rw [List.append_nil] at whole
  rw [decodeReply, whole]
  rfl

/-- A request as it is written is one of its spellings. -/
theorem spellsRequest_encodeRequest (r : Request) :
    SpellsRequest r (encodeRequest r) := by
  cases r with
  | lookup id pid => exact .lookup (isMapOf_writeMap _ _ (by simp [byteRange]))
  | health id => exact .health (isMapOf_writeMap _ _ (by simp [byteRange]))

/-- A reply as it is written is one of its spellings. -/
theorem spellsReply_encodeReply (r : Reply) : SpellsReply r (encodeReply r) := by
  cases r with
  | lookup r =>
      have error : SpellsFailure? (entryLevels - 1) r.failure
          (writeNullable encodeFailure r.failure) := by
        cases r.failure with
        | none => rfl
        | some f => exact isMapOf_writeMap _ _ (by simp [byteRange])
      exact .lookup error (isMapOf_writeMap _ _ (by simp [byteRange]))
  | health r => exact .health (isMapOf_writeMap _ _ (by simp [byteRange]))

/-! ## Twice -/

theorem isSound_lookup : IsSound lookupRecord.fields where
  distinct := by decide
  tight :=
    forall_of_two (isTight_unsigned64.field _ _ _) (isTight_signed32.field _ _ _)
  marks := forall_of_two
    (Field.marks (fun _ _ => rfl) fun _ _ => forall_of_two (fun _ => rfl) id)
    (Field.marks (fun _ _ => rfl) fun _ _ => forall_of_two id fun _ => rfl)

theorem isSound_health : IsSound healthRecord.fields where
  distinct := by decide
  tight := List.forall_mem_singleton.mpr (isTight_unsigned64.field _ _ _)
  marks := List.forall_mem_singleton.mpr
    (Field.marks (fun _ _ => rfl) fun _ _ =>
      List.forall_mem_singleton.mpr fun _ => rfl)

theorem isSound_failure : IsSound failureRecord.fields where
  distinct := by decide
  tight := forall_of_two (isTight_text.field _ _ _) (isTight_text.field _ _ _)
  marks := forall_of_two
    (Field.marks (fun _ _ => rfl) fun _ _ => forall_of_two (fun _ => rfl) id)
    (Field.marks (fun _ _ => rfl) fun _ _ => forall_of_two id fun _ => rfl)

theorem isSound_lookupReply : IsSound lookupReplyRecord.fields where
  distinct := by decide
  tight := forall_of_three (isTight_unsigned64.field _ _ _)
    (isTight_text.nullable.field _ _ _)
    ((Record.isTight isSound_failure.tight).nullable.field _ _ _)
  marks := forall_of_three
    (Field.marks (fun _ _ => rfl) fun _ _ => forall_of_three (fun _ => rfl) id id)
    (Field.marks (fun _ _ => rfl) fun _ _ => forall_of_three id (fun _ => rfl) id)
    (Field.marks (fun _ _ => rfl) fun _ _ => forall_of_three id id fun _ => rfl)

theorem isSound_report : IsSound reportRecord.fields where
  distinct := by decide
  tight := forall_of_three (isTight_unsigned64.field _ _ _)
    (isTight_text.field _ _ _) (isTight_text.field _ _ _)
  marks := forall_of_three
    (Field.marks (fun _ _ => rfl) fun _ _ => forall_of_three (fun _ => rfl) id id)
    (Field.marks (fun _ _ => rfl) fun _ _ => forall_of_three id (fun _ => rfl) id)
    (Field.marks (fun _ _ => rfl) fun _ _ => forall_of_three id id fun _ => rfl)

/-- The name of a variant. -/
def variantName : Exchange → String
  | .lookup => "bundle_id"
  | .health => "health"

def variantIndex : Exchange → Nat
  | .lookup => 0
  | .health => 1

/-- The key names a variant: by its name, as a text or as bytes,
or by its index. -/
inductive IsVariant (x : Exchange) (key : List UInt8) : Prop
  | str (spelled : Spells (.str (Utf8.encode (variantName x))) key)
  | bin (spelled : Spells (.bin (Utf8.encode (variantName x))) key)
  | index (spelled : Spells (.unsigned (variantIndex x)) key)

theorem exchangeOfName?_variantName (x : Exchange) :
    exchangeOfName? (Utf8.encode (variantName x)) = some x := by
  cases x <;> decide

theorem IsVariant.reads {x : Exchange} {key : List UInt8} (h : IsVariant x key) :
    Reads readVariant key x := by
  cases h with
  | str spelled =>
      refine spelled.reads.bind_pure ?_
      simp only [variantOf, Text.Utf8.decode_encode, exchangeOfName?_variantName]
      exact .pure x
  | bin spelled =>
      refine spelled.reads.bind_pure ?_
      simp only [variantOf, exchangeOfName?_variantName]
      exact .pure x
  | index spelled =>
      refine spelled.reads.bind_pure ?_
      cases x <;> exact .pure _

/-- The bytes are the body of a message, and what follows it: in the map of a
variant `x`, a value of a kind. -/
inductive HasVariant (kind : Exchange → List UInt8 → Prop) : List UInt8 → Prop
  | intro {n : Nat} {head key value : List UInt8} {x : Exchange}
      (spelled : Spells (.map n) head)
      (named : IsVariant x key) (of_kind : kind x value) :
      HasVariant kind (head ++ (key ++ value))

/-- What stands in the place of a message is never one. -/
theorem refuseBare_ne_ok {α : Type} (t : MessagePack.Token) (a : α) :
    refuseBare t ≠ .ok a := by
  unfold refuseBare
  cases variantOf t <;> exact fun found => nomatch found

/-- A message is read from a map with one entry. -/
theorem exists_map_of_readMessage {α : Type} {lookup health : Shape Reader α}
    {bytes rest : List UInt8} {a : α}
    (read : readMessage lookup health bytes = .ok (a, rest)) :
    ∃ mid, MessagePack.Token.read bytes = .ok (.map 1, mid) ∧
      readEntry lookup health mid = .ok (a, rest) := by
  obtain ⟨t, mid, head, entry⟩ := bind_eq_ok_iff.mp read
  cases t with
  | map count =>
      by_cases one : count = 1
      · subst one
        exact ⟨mid, head, entry⟩
      · simp only [if_neg one] at entry
        cases entry
  | _ => exact absurd (lift_eq_ok_iff.mp entry).1 (refuseBare_ne_ok _ a)

/-- A message whose variant has a value that is not read is not read. -/
theorem HasVariant.not_read {α : Type} {lookup health : Shape Reader α}
    {kind : Exchange → List UInt8 → Prop} {body rest : List UInt8}
    {a : α} (h : HasVariant kind body)
    (unread : ∀ x value, kind x value → ∀ (a : α) rest,
      (match x with | .lookup => lookup | .health => health : Shape Reader α).read
      maxLevels value ≠ .ok (a, rest)) :
    readMessage lookup health body ≠ .ok (a, rest) := by
  obtain @⟨n, head, key, value, x, spelled, named, of_kind⟩ := h
  intro read
  obtain ⟨mid, first, entry⟩ := exists_map_of_readMessage read
  cases (spelled.reads _).symm.trans first
  obtain ⟨x', after, variant, read⟩ := bind_eq_ok_iff.mp entry
  cases (named.reads value).symm.trans variant
  exact unread x value of_kind a rest (by cases x <;> exact read)

/-- The body of a request in whose record two keys name the same field. -/
def RequestNamesTwice : List UInt8 → Prop :=
  HasVariant fun x value => match x with
    | .lookup => NamesTwice lookupRecord.fields value
    | .health => NamesTwice healthRecord.fields value

/-- The body of a reply in whose record, or in whose failure, two keys name
the same field. -/
def ReplyNamesTwice : List UInt8 → Prop :=
  HasVariant fun x value => match x with
    | .lookup => NamesTwice lookupReplyRecord.fields value ∨
        ∃ f, f.name = "error" ∧ HasField lookupReplyRecord.fields f
          (NamesTwice failureRecord.fields) value
    | .health => NamesTwice reportRecord.fields value

variable {body : List UInt8}

/-- What is not read has no value. -/
theorem fst_ne_ok {α : Type} {p : Reader α}
    (unread : ∀ a rest, p body ≠ .ok (a, rest)) (a : α) :
    Prod.fst <$> p body ≠ .ok a := by
  cases read : p body with
  | error e => rintro ⟨⟩
  | ok out => exact absurd read (unread out.1 out.2)

theorem RequestNamesTwice.not_read (h : RequestNamesTwice body) (r : Request) :
    decodeRequest body ≠ .ok r := by
  refine fst_ne_ok (p := readRequest Reader) (fun r rest => ?_) r
  refine HasVariant.not_read h fun x value twice r rest => ?_
  cases x with
  | lookup => exact twice.not_read isSound_lookup
  | health => exact twice.not_read isSound_health

/-- A failure that may be missing is not read from a map in which two keys name
the same field. -/
theorem failure?_not_read {o : Option Failure} {rest : List UInt8}
    (twice : NamesTwice failureRecord.fields value) :
    (failureRecord (m := Reader)).shape.nullable.read levels value ≠
      .ok (o, rest) := by
  intro read
  rcases nullable_eq_ok read with nil | ⟨f, read⟩
  · cases twice with
    | intro spelled values room once again more =>
        cases (spelled.reads _).symm.trans nil
  · exact twice.not_read isSound_failure read

theorem not_read_of_failure_twice {rest : List UInt8}
    {f : MessagePack.Field Reader LookupReplyDraft} {r : Reply}
    (named : f.name = "error")
    (twice : HasField lookupReplyRecord.fields f
      (NamesTwice failureRecord.fields) value) :
    (lookupReplyRecord (m := Reader)).shape.read levels value ≠ .ok (r, rest) := by
  refine twice.not_read isSound_lookupReply
    fun inner twice' levels store rest read => ?_
  have listed := twice.mem
  simp only [lookupReplyRecord, List.mem_cons, List.not_mem_nil, or_false] at listed
  rcases listed with rfl | rfl | rfl
  · exact absurd named (by decide)
  · exact absurd named (by decide)
  · obtain ⟨o, read, -⟩ := Field.exists_value read
    exact failure?_not_read twice' read

theorem ReplyNamesTwice.not_read (h : ReplyNamesTwice body) (r : Reply) :
    decodeReply body ≠ .ok r := by
  refine fst_ne_ok (p := readReply Reader) (fun r rest => ?_) r
  refine HasVariant.not_read h fun x value twice r rest => ?_
  cases x with
  | lookup =>
      rcases twice with twice | ⟨f, named, twice⟩
      · exact twice.not_read isSound_lookupReply
      · exact not_read_of_failure_twice named twice
  | health => exact twice.not_read isSound_report

/-- Every spelling of a message is read as the message, the one that is written
among them: the entries of the maps may come in any order, among entries with keys
and values of any kind that the records do not know, and without those that are
nil. No body is read in which two keys of a record name the same field. (A text of
4 GiB has no body: its length cannot be written. A frame holds far less.) -/
theorem spellings_read :
    ((∀ r, SpellsRequest r (encodeRequest r)) ∧
      ∀ r body, SpellsRequest r body → decodeRequest body = .ok r) ∧
    ((∀ r, SpellsReply r (encodeReply r)) ∧
      ∀ r body, (∀ t ∈ replyTexts r, IsWritable t) →
      SpellsReply r body → decodeReply body = .ok r) ∧
    (∀ body, RequestNamesTwice body → ∀ r, decodeRequest body ≠ .ok r) ∧
    ∀ body, ReplyNamesTwice body → ∀ r, decodeReply body ≠ .ok r :=
  ⟨⟨spellsRequest_encodeRequest, fun _ _ => decodeRequest_of_spells⟩,
    ⟨spellsReply_encodeReply, fun _ _ => decodeReply_of_spells⟩,
    fun _ twice => twice.not_read, fun _ twice => twice.not_read⟩

/-- An entry that no record knows: its key are bytes, its value an array of an
extension and of nil. -/
def stray : List UInt8 × List UInt8 :=
  ([0xc4, 0x01, 0x78], [0x92, 0xc7, 0x02, 0x05, 0xff, 0xff, 0xc0])

theorem isForeign_stray {σ : Type} {fields : List (MessagePack.Field Reader σ)}
    (other : ∀ f ∈ fields, Utf8.encode f.name ≠ [0x78]) :
    IsForeign fields stray.1 := by
  have key : Spells (.bin [0x78]) stray.1 := .bin (k := 0) (by decide) (by decide)
  exact .bin key other

theorem isValue_stray (depth : Nat) : IsValue (depth + 2) stray.2 := by
  have size : Spells (.ext 2) [0xc7, 0x02] := .ext (k := 0) (by decide) (by decide)
  have ext : IsValue (depth + 1) [0xc7, 0x02, 0x05, 0xff, 0xff] :=
    .ext size 0x05 rfl
  exact .array [[0xc7, 0x02, 0x05, 0xff, 0xff], [0xc0]]
    (.fixArray (n := 2) (by decide)) rfl
    (forall_of_two ext (.scalar .nil rfl))

/-- A failure from back to front, behind a stray entry. -/
def scrambledFailure : List UInt8 :=
  mapHeader 3 ++
    [stray, textPair ("message", writeText "b"),
      textPair ("code", writeText "a")].flatMap pairBytes

/-- A reply from back to front, with a stray entry and without a bundle id. -/
def scrambledReply : List UInt8 :=
  writeMap [("bundle_id", mapHeader 3 ++
    [stray, textPair ("error", scrambledFailure),
      textPair ("id", writeUnsigned 7)].flatMap pairBytes)]

theorem spellsReply_scrambled :
    SpellsReply (.lookup ⟨7, none, some ⟨"a", "b"⟩⟩) scrambledReply := by
  have failure : SpellsFailure (entryLevels - 1) ⟨"a", "b"⟩ scrambledFailure := by
    refine .intro [("code", writeText "a"), ("message", writeText "b")] [] [stray] _
      (.refl _) ?_ ?_ ?_
      (List.reverse_perm _) (by decide)
    · rintro _ ⟨⟩
    · exact List.forall_mem_singleton.mpr (isForeign_stray (by decide))
    · exact List.forall_mem_singleton.mpr (isValue_stray 1019)
  refine .lookup failure ?_
  refine .intro [("id", writeUnsigned 7), ("error", scrambledFailure)]
    [("bundle_id", writeNil)] [stray] _
    ?_ ?_ ?_ ?_ (List.reverse_perm _) (by decide)
  · exact (List.Perm.swap _ _ []).cons _
  · exact List.forall_mem_singleton.mpr rfl
  · exact List.forall_mem_singleton.mpr (isForeign_stray (by decide))
  · exact List.forall_mem_singleton.mpr (isValue_stray 1020)

/-- A request whose number stands behind its name and again behind its index. -/
def doubledRequest : List UInt8 :=
  [0x81] ++
    ([0x00] ++ ([0x82] ++
      ([(writeText "id", [0x01])].flatMap pairBytes ++ ([0x00] ++ [0x02]))))

theorem requestNamesTwice_doubled : RequestNamesTwice doubledRequest := by
  have again : Names lookupRecord.fields [0x00]
      (lookupRecord.fields.get ⟨0, by decide⟩) :=
    .index (.fixPos (n := 0) (by decide)) rfl
  refine .intro (x := .lookup) (.fixMap (n := 1) (by decide))
    (.index (.fixPos (n := 0) (by decide))) ?_
  refine .intro (.fixMap (n := 2) (by decide))
    (List.forall_mem_singleton.mpr ⟨⟨0, ?_⟩, ⟨0, ?_⟩⟩) (by decide)
    ⟨_, List.mem_singleton.mpr rfl,
      .str (spells_writeText (by decide)) List.mem_cons_self⟩ again [0x02]
  · exact .scalar (spells_writeText (by decide)) rfl
  · exact .scalar (.fixPos (n := 1) (by decide)) rfl

/-- A reply in whose failure the code stands behind its name as bytes and again
behind its name as a text. -/
def doubledReply : List UInt8 :=
  [0x81] ++ ([0x00] ++
    ([0x83] ++ ([([0x00], [0x07])].flatMap pairBytes ++ ([0x02] ++ ([0x82] ++
    ([([0xc4, 0x04, 0x63, 0x6f, 0x64, 0x65], writeText "a")].flatMap pairBytes ++
      (writeText "code" ++ writeText "b")))))))

theorem replyNamesTwice_doubled : ReplyNamesTwice doubledReply := by
  have code : Utf8.encode "code" = [0x63, 0x6f, 0x64, 0x65] := by decide
  have spelled : Spells (.bin [0x63, 0x6f, 0x64, 0x65])
      [0xc4, 0x04, 0x63, 0x6f, 0x64, 0x65] :=
    .bin (k := 0) (by decide) (by decide)
  have failure : NamesTwice failureRecord.fields ([0x82] ++
      ([([0xc4, 0x04, 0x63, 0x6f, 0x64, 0x65], writeText "a")].flatMap pairBytes ++
        (writeText "code" ++ writeText "b"))) := by
    refine .intro (.fixMap (n := 2) (by decide))
      (List.forall_mem_singleton.mpr ⟨⟨0, ?_⟩, ⟨0, ?_⟩⟩)
      (by decide) ⟨_, List.mem_singleton.mpr rfl, .bin ?_ List.mem_cons_self⟩
      (.str (spells_writeText (by decide)) List.mem_cons_self) (writeText "b")
    · exact .scalar spelled rfl
    · exact .scalar (spells_writeText (by decide)) rfl
    · show Spells (.bin (Utf8.encode "code")) _
      rwa [code]
  refine .intro (x := .lookup) (.fixMap (n := 1) (by decide))
    (.index (.fixPos (n := 0) (by decide)))
    (.inr ⟨lookupReplyRecord.fields.get ⟨2, by decide⟩, rfl, ?_⟩)
  refine .intro (.fixMap (n := 3) (by decide))
    (List.forall_mem_singleton.mpr ⟨⟨0, ?_⟩, ⟨0, ?_⟩⟩) (by decide)
    (.index (.fixPos (n := 2) (by decide)) rfl) failure
  · exact .scalar (.fixPos (n := 0) (by decide)) rfl
  · exact .scalar (.fixPos (n := 7) (by decide)) rfl

/-- The scrambled reply is read, the doubled bodies are not. -/
theorem scrambled_read :
    decodeReply scrambledReply = .ok (.lookup ⟨7, none, some ⟨"a", "b"⟩⟩) ∧
    (∀ r, decodeRequest doubledRequest ≠ .ok r) ∧
    ∀ r, decodeReply doubledReply ≠ .ok r := by
  have short : ∀ t ∈ ["a", "b"], (Utf8.encode t).length < byteRange 4 := by decide
  exact ⟨spellings_read.2.1.2 _ _ short spellsReply_scrambled,
    spellings_read.2.2.1 _ requestNamesTwice_doubled,
    spellings_read.2.2.2 _ replyNamesTwice_doubled⟩

end ElementAgent.Wire

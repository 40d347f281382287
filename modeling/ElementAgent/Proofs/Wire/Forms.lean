import ElementAgent.Proofs.MessagePack.Forms
import ElementAgent.Proofs.Wire.Spellings

/-!
# Forms of bodies

Whatever forms the numbers, texts and heads in a body have, and whether its
records are maps or arrays, it is the body of the same message (`RequestForm`,
`ReplyForm`). Main statement (`forms_read`): numbers are read by their values or
refused, every form of a body is read as its message, the one that is written
among them, and a body with a number that is out of range is not read.
-/

namespace ElementAgent.Wire

open MessagePack

variable {α : Type} {x : Exchange} {kind : List UInt8 → Prop} {body : List UInt8}
  {i p : Int}

/-! ## Messages -/

/-- A message: a map with one entry, whose key names the variant and whose value
is of a kind. -/
inductive HoldsVariant (x : Exchange) (kind : List UInt8 → Prop) : List UInt8 → Prop
  | intro {head key value : List UInt8} (spelled : Spells (.map 1) head)
      (named : IsVariant x key)
      (of_kind : kind value) : HoldsVariant x kind (head ++ (key ++ value))

/-- The entry of a message is made of the value behind the variant's key. -/
theorem gives_entry (lookup health : Shape Reader α) {out : Except Fault α}
    {key value : List UInt8}
    (read : Gives
      ((match x with | .lookup => lookup | .health => health : Shape Reader α).read
        maxLevels) value out)
    (named : IsVariant x key) :
    Gives (readEntry lookup health) (key ++ value) out := by
  refine Gives.bind named.reads ?_
  cases x <;> exact read

/-- A message is made of the value of its variant. -/
theorem HoldsVariant.gives (lookup health : Shape Reader α) {out : Except Fault α}
    (read : ∀ value, kind value → Gives
      ((match x with | .lookup => lookup | .health => health : Shape Reader α).read
        maxLevels) value out)
    (holds : HoldsVariant x kind body) :
    Gives (readMessage lookup health) body out := by
  cases holds with
  | @intro head key value spelled named of_kind =>
      exact Gives.bind spelled.reads
        (gives_entry lookup health (read value of_kind) named)

/-! ## Forms -/

/-- Bodies that ask about the process `p` under the number `i`, whether or not
these are in range. -/
def LookupForm (i p : Int) : List UInt8 → Prop :=
  HoldsVariant .lookup
    (HoldsRecord lookupRecord.fields [CarriesNumber i, CarriesNumber p])

def HealthForm (i : Int) : List UInt8 → Prop :=
  HoldsVariant .health (HoldsRecord healthRecord.fields [CarriesNumber i])

def FailureForm (f : Failure) : List UInt8 → Prop :=
  HoldsRecord failureRecord.fields [CarriesText f.code, CarriesText f.message]

/-- Bodies that answer a lookup under the number `i`, whether or not
it is in range. -/
def LookupReplyForm (i : Int) (bundle : Option String) (failure : Option Failure) :
    List UInt8 → Prop :=
  HoldsVariant .lookup (HoldsRecord lookupReplyRecord.fields
    [CarriesNumber i, CarriesNullable CarriesText bundle,
      CarriesNullable FailureForm failure])

def ReportForm (i : Int) (status version : String) : List UInt8 → Prop :=
  HoldsVariant .health (HoldsRecord reportRecord.fields
    [CarriesNumber i, CarriesText status, CarriesText version])

/-- Bodies of a request, in every form of its numbers, of the heads of its maps
and of their keys. -/
def RequestForm : Request → List UInt8 → Prop
  | .lookup id pid => LookupForm id.toNat pid.toInt
  | .health id => HealthForm id.toNat

/-- Bodies of a reply, in every form of its number, of its texts, of the heads of
its maps and of their keys. -/
def ReplyForm : Reply → List UInt8 → Prop
  | .lookup r => LookupReplyForm r.id.toNat r.bundle r.failure
  | .health r => ReportForm r.id.toNat r.status r.version

/-- Bodies of requests with the number `i` in the place of the id. -/
def AsksUnder (i : Int) (body : List UInt8) : Prop :=
  (∃ p, LookupForm i p body) ∨ HealthForm i body

/-- Bodies of replies with the number `i` in the place of the id. -/
def AnswersUnder (i : Int) (body : List UInt8) : Prop :=
  (∃ bundle failure, LookupReplyForm i bundle failure body) ∨
  ∃ status version, ReportForm i status version body

/-! ## Reading -/

theorem decodeRequest_lookupForm (form : LookupForm i p body) :
    decodeRequest body = do return .lookup (← asUnsigned64 i) (← asSigned32 p) := by
  refine (form.gives lookupRecord.shape healthRecord.shape fun value holds =>
    ?_).fst_eq
  have drafts : Drafts (maxLevels - 1) lookupRecord.fields
      [CarriesNumber i, CarriesNumber p]
      (lookupRecord (m := Reader)).blank
        (do return ⟨some (← asUnsigned64 i), some (← asSigned32 p)⟩) := by
    refine .place_bind (fun _ carries => gives_unsigned64 carries _) rfl
      fun id => ?_
    exact .place_bind (fun _ carries => gives_signed32 carries _) rfl
      fun pid => .done _
  have made := drafts.gives_record isSound_lookup.distinct holds
  simp only [bind_assoc, pure_bind] at made
  exact made

theorem decodeRequest_healthForm (form : HealthForm i body) :
    decodeRequest body = do return .health (← asUnsigned64 i) := by
  refine (form.gives lookupRecord.shape healthRecord.shape fun value holds =>
    ?_).fst_eq
  have drafts : Drafts (maxLevels - 1) healthRecord.fields [CarriesNumber i]
      (healthRecord (m := Reader)).blank
      (do return ⟨some (← asUnsigned64 i)⟩) :=
    .place_bind (fun _ carries => gives_unsigned64 carries _) rfl fun id => .done _
  have made := drafts.gives_record isSound_health.distinct holds
  simp only [bind_assoc, pure_bind] at made
  exact made

theorem reads_failureForm {levels : Nat} {f : Failure} (form : FailureForm f body) :
    Reads (failureRecord.shape.read (levels + 1)) body f := by
  have drafts : Drafts levels failureRecord.fields
      [CarriesText f.code, CarriesText f.message]
      (failureRecord (m := Reader)).blank (.ok ⟨some f.code, some f.message⟩) := by
    refine .place (fun _ carries => reads_carriedText carries _) rfl ?_
    exact .place (fun _ carries => reads_carriedText carries _) rfl (.done _)
  exact drafts.gives_record isSound_failure.distinct form

theorem decodeReply_lookupReplyForm {bundle : Option String}
    {failure : Option Failure} (form : LookupReplyForm i bundle failure body) :
    decodeReply body = do return .lookup ⟨← asUnsigned64 i, bundle, failure⟩ := by
  refine (form.gives lookupReplyRecord.shape reportRecord.shape fun value holds =>
    ?_).fst_eq
  have drafts : Drafts (maxLevels - 1) lookupReplyRecord.fields
      [CarriesNumber i, CarriesNullable CarriesText bundle,
        CarriesNullable FailureForm failure]
      (lookupReplyRecord (m := Reader)).blank
        (do return ⟨some (← asUnsigned64 i), some bundle, some failure⟩) := by
    refine .place_bind (fun _ carries => gives_unsigned64 carries _) rfl
      fun id => ?_
    refine .place (fun _ carried => ?_) rfl
      (.place (fun _ carried => ?_) rfl (.done _))
    · exact reads_carriedNullable (fun _ _ carries => reads_carriedText carries _)
        (fun _ _ carries => CarriesText.marked carries) carried
    · exact reads_carriedNullable (fun _ _ form => reads_failureForm form)
        (fun _ _ form => HoldsRecord.marked form) carried
  have made := drafts.gives_record isSound_lookupReply.distinct holds
  simp only [bind_assoc, pure_bind] at made
  exact made

theorem decodeReply_reportForm {status version : String}
    (form : ReportForm i status version body) :
    decodeReply body = do return .health ⟨← asUnsigned64 i, status, version⟩ := by
  refine (form.gives lookupReplyRecord.shape reportRecord.shape fun value holds =>
    ?_).fst_eq
  have drafts : Drafts (maxLevels - 1) reportRecord.fields
      [CarriesNumber i, CarriesText status, CarriesText version]
      (reportRecord (m := Reader)).blank
        (do return ⟨some (← asUnsigned64 i), some status, some version⟩) := by
    refine .place_bind (fun _ carries => gives_unsigned64 carries _) rfl
      fun id => ?_
    refine .place (fun _ carries => reads_carriedText carries _) rfl ?_
    exact .place (fun _ carries => reads_carriedText carries _) rfl (.done _)
  have made := drafts.gives_record isSound_report.distinct holds
  simp only [bind_assoc, pure_bind] at made
  exact made

theorem decodeRequest_of_form {r : Request} (form : RequestForm r body) :
    decodeRequest body = .ok r := by
  cases r with
  | lookup id pid =>
      rw [decodeRequest_lookupForm form, asUnsigned64_toNat, asSigned32_toInt]
      rfl
  | health id =>
      rw [decodeRequest_healthForm form, asUnsigned64_toNat]
      rfl

theorem decodeReply_of_form {r : Reply} (form : ReplyForm r body) :
    decodeReply body = .ok r := by
  cases r with
  | lookup r =>
      rw [decodeReply_lookupReplyForm form, asUnsigned64_toNat]
      rfl
  | health r =>
      rw [decodeReply_reportForm form, asUnsigned64_toNat]
      rfl

/-! ## Writing -/

theorem carriesNumber_id (id : UInt64) :
    CarriesNumber id.toNat (writeUnsigned id.toNat) :=
  carriesNumber_writeUnsigned id.toNat_lt

theorem carriesNumber_pid (pid : Pid) :
    CarriesNumber pid.toInt (writeInteger pid.toInt) := by
  have low := pid.le_toInt
  have high := pid.toInt_lt
  have eight_bytes : byteRange 8 = 0x10000000000000000 := rfl
  exact carriesNumber_writeInteger (by omega) (by omega)

/-- A message as it is written is one of its forms. -/
theorem holdsVariant_writeMap {value : List UInt8} (x : Exchange)
    (of_kind : kind value) :
    HoldsVariant x kind (writeMap [(variantName x, value)]) := by
  have named : IsVariant x (writeText (variantName x)) :=
    .str (spells_writeText (by cases x <;> decide))
  have written : writeMap [(variantName x, value)] =
      [0x81] ++ (writeText (variantName x) ++ value) := by
    simp [writeMap, mapHeader]
  rw [written]
  exact .intro (.fixMap (n := 1) (by decide)) named of_kind

theorem requestForm_encodeRequest (r : Request) :
    RequestForm r (encodeRequest r) := by
  cases r with
  | lookup id pid =>
      exact holdsVariant_writeMap .lookup
        (holdsRecord_writeMap lookupRecord.fields rfl (by decide)
        (by decide)
        (.cons (carriesNumber_id id) (.cons (carriesNumber_pid pid) .nil)))
  | health id =>
      exact holdsVariant_writeMap .health
        (holdsRecord_writeMap healthRecord.fields rfl (by decide)
        (by decide) (.cons (carriesNumber_id id) .nil))

theorem failureForm_encodeFailure {f : Failure} (code : IsWritable f.code)
    (message : IsWritable f.message) :
    FailureForm f (encodeFailure f) :=
  holdsRecord_writeMap failureRecord.fields rfl (by decide) (by decide)
    (.cons (spells_writeText code) (.cons (spells_writeText message) .nil))

theorem carriesNullable_written {β : Type} {carries : β → List UInt8 → Prop}
    {write : β → List UInt8} {o : Option β}
    (written : ∀ b ∈ o, carries b (write b)) :
    CarriesNullable carries o (writeNullable write o) := by
  cases o with
  | none => rfl
  | some b => exact written b rfl

theorem replyForm_encodeReply {r : Reply}
    (writable : ∀ t ∈ replyTexts r, IsWritable t) :
    ReplyForm r (encodeReply r) := by
  cases r with
  | lookup r =>
      have bundle : CarriesNullable CarriesText r.bundle
          (writeNullable writeText r.bundle) :=
        carriesNullable_written fun t given =>
          spells_writeText
            (writable t (by simp [replyTexts, Option.mem_def.mp given]))
      have failure : CarriesNullable FailureForm r.failure
          (writeNullable encodeFailure r.failure) :=
        carriesNullable_written fun f given => failureForm_encodeFailure
          (writable _ (by simp [replyTexts, Option.mem_def.mp given]))
          (writable _ (by simp [replyTexts, Option.mem_def.mp given]))
      exact holdsVariant_writeMap .lookup
        (holdsRecord_writeMap lookupReplyRecord.fields rfl
        (by decide) (by decide)
        (.cons (carriesNumber_id r.id) (.cons bundle (.cons failure .nil))))
  | health r =>
      have status := spells_writeText (writable r.status (by simp [replyTexts]))
      have version := spells_writeText (writable r.version (by simp [replyTexts]))
      exact holdsVariant_writeMap .health
        (holdsRecord_writeMap reportRecord.fields rfl
        (by decide) (by decide)
        (.cons (carriesNumber_id r.id) (.cons status (.cons version .nil))))

/-! ## Out of range -/

theorem AsksUnder.refused (asks : AsksUnder i body)
    (outside : i < 0 ∨ 0x10000000000000000 ≤ i) :
    decodeRequest body = .error (.wrongValue (.integer i) .unsigned64) := by
  rcases asks with ⟨p, form⟩ | form
  · rw [decodeRequest_lookupForm form, asUnsigned64_of_outside outside]
    rfl
  · rw [decodeRequest_healthForm form, asUnsigned64_of_outside outside]
    rfl

theorem AnswersUnder.refused (answers : AnswersUnder i body)
    (outside : i < 0 ∨ 0x10000000000000000 ≤ i) :
    decodeReply body = .error (.wrongValue (.integer i) .unsigned64) := by
  rcases answers with ⟨bundle, failure, form⟩ | ⟨status, version, form⟩
  · rw [decodeReply_lookupReplyForm form, asUnsigned64_of_outside outside]
    rfl
  · rw [decodeReply_reportForm form, asUnsigned64_of_outside outside]
    rfl

theorem LookupForm.refused {id : UInt64} (form : LookupForm id.toNat p body)
    (outside : p < -0x80000000 ∨ 0x80000000 ≤ p) :
    decodeRequest body = .error (.wrongValue (.integer p) .signed32) := by
  rw [decodeRequest_lookupForm form, asUnsigned64_toNat,
    asSigned32_of_outside outside]
  rfl

/-- No number is changed on the wire, and its form does not matter. In the place
of an id or of a process's number every form of a number is read as that number,
if it is in range, and is refused by its value, if it is not. Every form of a body
is read as its message, the one that is written among them, whatever the forms of
its numbers, of its texts and of the heads of its maps; and no body is read in
which an id or a process's number is out of range. (A text of 4 GiB has no body:
its length cannot be written. A frame holds far less.) -/
theorem forms_read :
    IsExact .unsigned64
      (fun id => (id.toNat : Int)) 0 0xffffffffffffffff .unsigned64 ∧
    IsExact .signed32 Int32.toInt (-0x80000000) 0x7fffffff .signed32 ∧
    ((∀ r, RequestForm r (encodeRequest r)) ∧
      ∀ r body, RequestForm r body → decodeRequest body = .ok r) ∧
    ((∀ r, (∀ t ∈ replyTexts r, IsWritable t) → ReplyForm r (encodeReply r)) ∧
      ∀ r body, ReplyForm r body → decodeReply body = .ok r) ∧
    (∀ i, (i < 0 ∨ 0x10000000000000000 ≤ i) → ∀ body,
      (AsksUnder i body → decodeRequest body =
        .error (.wrongValue (.integer i) .unsigned64)) ∧
      (AnswersUnder i body → decodeReply body =
        .error (.wrongValue (.integer i) .unsigned64))) ∧
    ∀ (id : UInt64) (p : Int), (p < -0x80000000 ∨ 0x80000000 ≤ p) → ∀ body,
      LookupForm id.toNat p body →
      decodeRequest body = .error (.wrongValue (.integer p) .signed32) :=
  ⟨isExact_unsigned64, isExact_signed32,
    ⟨requestForm_encodeRequest, fun _ _ => decodeRequest_of_form⟩,
    ⟨fun _ => replyForm_encodeReply, fun _ _ => decodeReply_of_form⟩,
    fun _ outside _ =>
      ⟨fun asks => asks.refused outside, fun answers => answers.refused outside⟩,
    fun _ _ outside _ form => form.refused outside⟩

/-- A request with its heads as long as they can be, and both numbers marked as
signed in eight bytes. -/
def wideRequest : List UInt8 :=
  [0xdf, 0, 0, 0, 1] ++ (0xdb :: (bigEndian 4 9 ++ Text.Utf8.encode "bundle_id") ++
    ([0xdf, 0, 0, 0, 2] ++
      (0xdb :: (bigEndian 4 2 ++ Text.Utf8.encode "id") ++
        (0xd3 :: bigEndian 8 200 ++
        (0xdb :: (bigEndian 4 3 ++ Text.Utf8.encode "pid") ++
          (0xd3 :: bigEndian 8 (twosComplement 8 (-0x80000000)) ++ []))))))

theorem requestForm_wide : RequestForm (.lookup 200 (-0x80000000)) wideRequest := by
  have id : CarriesNumber 200 (0xd3 :: bigEndian 8 200) :=
    ⟨.signed 200, .signed (k := 3) (by decide) (by decide) (by decide), rfl⟩
  have pid : CarriesNumber (-0x80000000)
      (0xd3 :: bigEndian 8 (twosComplement 8 (-0x80000000))) :=
    ⟨.signed (-0x80000000),
      .signed (k := 3) (by decide) (by decide) (by decide), rfl⟩
  refine .intro (.map (k := 2) (.inr rfl) (by decide))
    (.str (.str (k := 2) (by decide) (by decide))) ?_
  refine .map (.map (k := 2) (.inr rfl) (by decide)) ?_
  refine .cons (.str (.str (k := 2) (by decide) (by decide)) (.head _)) id ?_
  exact .cons (.str (.str (k := 2) (by decide) (by decide)) (.tail _ (.head _)))
    pid .nil

/-- A reply with texts whose lengths are as long as they can be. -/
def wideReply : List UInt8 :=
  [0xdf, 0, 0, 0, 1] ++ (writeText "health" ++ ([0xde, 0, 3] ++
    (writeText "id" ++ ((0xcf :: bigEndian 8 7) ++ (writeText "status" ++
      ((0xdb :: (bigEndian 4 2 ++ Text.Utf8.encode "ok")) ++ (writeText "version" ++
        ((0xda :: (bigEndian 2 0 ++ Text.Utf8.encode "")) ++ []))))))))

theorem replyForm_wide : ReplyForm (.health ⟨7, "ok", ""⟩) wideReply := by
  have status : CarriesText "ok"
      (0xdb :: (bigEndian 4 2 ++ Text.Utf8.encode "ok")) :=
    .str (k := 2) (by decide) (by decide)
  have version : CarriesText "" (0xda :: (bigEndian 2 0 ++ Text.Utf8.encode "")) :=
    .str (k := 1) (by decide) (by decide)
  refine .intro (.map (k := 2) (.inr rfl) (by decide))
    (.str (spells_writeText (by decide))) ?_
  refine .map (.map (k := 1) (.inl rfl) (by decide)) ?_
  refine .cons (.str (spells_writeText (by decide)) (.head _))
    ⟨.unsigned 7, .unsigned (k := 3) (by decide) (by decide), rfl⟩ ?_
  refine .cons (.str (spells_writeText (by decide)) (.tail _ (.head _))) status ?_
  exact .cons (.str (spells_writeText (by decide)) (.tail _ (.tail _ (.head _))))
    version .nil

/-- A request about the process 2^31, one more than there can be: an array, behind
its variant's index. -/
def farRequest : List UInt8 := [0x81] ++
  ([0x00] ++ ([0x92] ++ ([0x07] ++ (0xce :: bigEndian 4 0x80000000 ++ []))))

theorem lookupForm_far : LookupForm 7 0x80000000 farRequest := by
  refine .intro (.fixMap (n := 1) (by decide))
    (.index (.fixPos (n := 0) (by decide))) ?_
  refine .array (.fixArray (n := 2) (by decide)) ?_
  refine .cons ⟨.unsigned 7, .fixPos (by decide), rfl⟩ (.cons ?_ .nil)
  exact ⟨.unsigned 0x80000000, .unsigned (k := 2) (by decide) (by decide), rfl⟩

/-- A report under the number -1, in the one byte in which 255
would be unsigned. -/
def negativeReport : List UInt8 :=
  [0x81] ++ ([0x01] ++
    ([0x93] ++ ([0xd0, 0xff] ++ (writeText "ok" ++ (writeText "1" ++ [])))))

theorem reportForm_negative : ReportForm (-1) "ok" "1" negativeReport := by
  refine .intro (.fixMap (n := 1) (by decide))
    (.index (.fixPos (n := 1) (by decide))) ?_
  refine .array (.fixArray (n := 3) (by decide)) ?_
  refine .cons ⟨.signed (-1),
    .signed (k := 0) (by decide) (by decide) (by decide), rfl⟩ ?_
  exact .cons (spells_writeText (by decide))
    (.cons (spells_writeText (by decide)) .nil)

/-- The wide bodies are read as what they say; the process and the number that are
out of range are refused by their values. -/
theorem wide_read :
    decodeRequest wideRequest = .ok (.lookup 200 (-0x80000000)) ∧
    decodeReply wideReply = .ok (.health ⟨7, "ok", ""⟩) ∧
    ReplyForm (.health ⟨7, "ok", ""⟩) (encodeReply (.health ⟨7, "ok", ""⟩)) ∧
    decodeRequest farRequest =
      .error (.wrongValue (.integer 0x80000000) .signed32) ∧
    decodeReply negativeReport =
      .error (.wrongValue (.integer (-1)) .unsigned64) := by
  have short : ∀ t ∈ ["ok", ""], (Text.Utf8.encode t).length < byteRange 4 := by
    decide
  exact ⟨forms_read.2.2.1.2 _ _ requestForm_wide,
    forms_read.2.2.2.1.2 _ _ replyForm_wide,
    forms_read.2.2.2.1.1 (.health ⟨7, "ok", ""⟩) short,
    forms_read.2.2.2.2.2 7 _ (.inr (by decide)) _ lookupForm_far,
    (forms_read.2.2.2.2.1 (-1) (.inl (by decide)) _).2
      (.inr ⟨_, _, reportForm_negative⟩)⟩

end ElementAgent.Wire

import ElementAgent.Proofs.Controller.Dispatch
import ElementAgent.Proofs.Wire.Forms

/-!
# Requests that come back

A far end may send the controller its own requests. Requests and replies have
variants of the same names, and records that ignore what they do not know, so that
a lookup that comes back is even read as a reply. Main statement
(`echoes_answer_nothing`): in every run, whatever else the far end writes, no call
is answered by a request that came back. A lookup is one violation more each time
it is read, and fails the call of its id, if that is outstanding; a health check
cannot be read as a reply, and fails all calls.
-/

namespace ElementAgent

open MessagePack
open Wire (front frame maxBody encodeRequest decodeReply Splitter)

/-! ## Requests as replies -/

namespace Wire

/-- A lookup is read as a reply that says nothing. The reply does not know the
pid, and its other fields may be missing. -/
theorem decodeReply_lookup (id : UInt64) (pid : Pid) :
    decodeReply (encodeRequest (.lookup id pid)) =
      .ok (.lookup ⟨id, none, none⟩) := by
  have pidKey : IsForeign lookupReplyRecord.fields (writeText "pid") :=
    .str (spells_writeText (by decide)) (by decide)
  have pidValue : IsValue entryLevels (writeInteger pid.toInt) := by
    obtain ⟨t, spelled, number⟩ := carriesNumber_pid pid
    refine .scalar spelled ?_
    cases t <;> first | rfl | cases number
  refine decodeReply_of_spells (by simp [replyTexts]) (.lookup rfl ?_)
  exact .intro [("id", writeUnsigned id.toNat)]
    [("bundle_id", writeNil), ("error", writeNil)]
    [textPair ("pid", writeInteger pid.toInt)]
    [textPair ("id", writeUnsigned id.toNat),
      textPair ("pid", writeInteger pid.toInt)]
    (.refl _) (forall_of_two rfl rfl)
    (List.forall_mem_singleton.mpr pidKey) (List.forall_mem_singleton.mpr pidValue)
    (.refl _) (by simp [byteRange])

/-- A health check is not read as a reply: it has no status. -/
theorem decodeReply_health (id : UInt64) :
    decodeReply (encodeRequest (.health id)) = .error (.missingField "status") := by
  have entries : Reads (Record.readEntries reportRecord.fields (maxLevels - 1) 1
        (reportRecord (m := Reader)).blank)
      (writeText "id" ++ writeUnsigned id.toNat ++ []) ⟨some id, none, none⟩ :=
    reads_entry "id" (by decide) rfl rfl ((reads_unsigned64 _ id).map _) (.pure _)
  have draft : Gives (reportRecord.readDraft maxLevels)
      (writeMap [("id", writeUnsigned id.toNat)])
      (.ok ⟨some id, none, none⟩) :=
    (reads_mapHeader (by simp [byteRange])).bind entries
  have record : Gives (reportRecord.shape.read maxLevels)
      (writeMap [("id", writeUnsigned id.toNat)])
      (.error (.missingField "status")) := draft.bind_lift
  refine ((holdsVariant_writeMap .health rfl).gives lookupReplyRecord.shape
    reportRecord.shape ?_).fst_eq
  rintro _ rfl
  exact record

end Wire

/-! ## Completions that are no answers -/

/-- The agent has answered the call, be it that there is no bundle id. -/
inductive Completion.IsAnswer : Completion → Prop
  | bundle (b : String) : IsAnswer (.lookup (.ok b))
  | failure (f : Failure) : IsAnswer (.lookup (.error (.agent f)))
  | report (r : HealthReport) : IsAnswer (.health (.ok r))

/-- The connection has failed the call. -/
def Completion.IsCutOff (o : Completion) : Prop :=
  ∃ x why, o = .failed x (Disconnect.error why)

theorem Completion.IsCutOff.not_isAnswer {o : Completion} (h : o.IsCutOff) :
    ¬o.IsAnswer := by
  obtain ⟨x, why, rfl⟩ := h
  cases x <;> rintro ⟨⟩

namespace CallTable

variable {t : CallTable} {ops : List Operation} {e : Nat × Completion}

theorem isCutOff_of_cons {n : Nat} {x : Exchange} {why : Disconnect}
    (listed : e ∈ (n, Completion.failed x why.error) :: t.completed) :
    e ∈ t.completed ∨ e.2.IsCutOff := by
  rcases List.mem_cons.mp listed with rfl | old
  · exact .inr ⟨x, why, rfl⟩
  · exact .inl old

theorem isCutOff_of_insert {id : UInt64} {c : Call}
    (listed : e ∈ (t.insert id c).completed) :
    e ∈ t.completed ∨ e.2.IsCutOff := by
  cases found : t.remove id with
  | none =>
      rw [insert_of_absent (remove_eq_none.mp found)] at listed
      exact .inl listed
  | some out =>
      rw [insert_of_remove found] at listed
      exact isCutOff_of_cons listed

theorem isCutOff_of_close {why : Disconnect}
    (listed : e ∈ (t.close why).completed) :
    e ∈ t.completed ∨ e.2.IsCutOff := by
  rw [close, failAll_completed] at listed
  rcases List.mem_append.mp listed with failed | old
  · obtain ⟨c, -, rfl⟩ := List.mem_map.mp (List.mem_reverse.mp failed)
    exact .inr ⟨c.exchange, why, rfl⟩
  · exact .inl old

/-- Calls are failed for what becomes of the connection, unless it
is for a reply. -/
theorem isCutOff_of_apply (op : Operation) (silent : ∀ r, op ≠ .receive r)
    (listed : e ∈ (t.apply op).completed) :
    e ∈ t.completed ∨ e.2.IsCutOff := by
  cases op with
  | receive r => exact absurd rfl (silent r)
  | issue x =>
      rw [apply, issue] at listed
      split_ifs at listed with closed
      · exact isCutOff_of_cons listed
      · exact isCutOff_of_insert (t := { t with issued := t.issued + 1 }) listed
  | withdraw id =>
      rw [apply] at listed
      cases found : t.remove id with
      | none =>
          rw [withdraw_of_absent (remove_eq_none.mp found)] at listed
          exact .inl listed
      | some out =>
          rw [withdraw_of_remove found] at listed
          exact isCutOff_of_cons listed
  | close why => exact isCutOff_of_close listed

theorem isCutOff_of_applyAll (silent : ∀ op ∈ ops, ∀ r, op ≠ .receive r)
    (listed : e ∈ (t.applyAll ops).completed) : e ∈ t.completed ∨ e.2.IsCutOff := by
  induction ops generalizing t with
  | nil => exact .inl listed
  | cons op ops ih =>
      obtain ⟨first, others⟩ := List.forall_mem_cons.mp silent
      rcases ih others listed with old | cut
      · exact isCutOff_of_apply op first old
      · exact .inr cut

/-- The only call that a reply completes comes to its verdict. -/
theorem completed_receive {r : Reply} (listed : e ∈ (t.receive r).completed) :
    e ∈ t.completed ∨ ∃ x, e.2 = r.verdict x := by
  cases found : t.remove r.id with
  | none =>
      rw [receive_of_foreign (remove_eq_none.mp found)] at listed
      exact .inl listed
  | some out =>
      rw [receive_of_remove found] at listed
      rcases List.mem_cons.mp listed with rfl | old
      · exact .inr ⟨_, rfl⟩
      · exact .inl old

end CallTable

/-- Making a call completes none but by failing it. -/
theorem Controller.isCutOff_of_call {c : Controller} {x : Exchange}
    {request : UInt64 → Request} {e : Nat × Completion}
    (listed : e ∈ (c.call x request).calls.completed) :
    e ∈ c.calls.completed ∨ e.2.IsCutOff := by
  rw [call_calls] at listed
  refine CallTable.isCutOff_of_applyAll ?_ listed
  unfold operations.operationsOfCall
  split_ifs <;> simp

/-! ## The reader -/

/-- What the reader does with a body that it has taken off the stream. -/
def Controller.hear (c : Controller) : Except Fault Reply → Controller
  | .ok r => { c with calls := c.calls.receive r }
  | .error _ => { c with calls := c.calls.close .undecodable, readerGone := true }

/-- The bytes that have come and have not been taken. -/
def Wired.unread {σ : Type} (w : Wired σ) : List UInt8 :=
  w.undecoded ++ w.inbound.bytes

namespace Wired

variable {σ α : Type} {w : Wired σ} {body rest : List UInt8}

/-- A reader that stands in front of a body finds it. -/
theorem found?_of_body (read : List UInt8 → Except Fault α)
    (sound : w.splitter.IsSound)
    (whole : front w.undecoded = (.body body, rest)) :
    ∃ splitter buffer, splitter.IsSound ∧ splitter.owed buffer = rest ∧
      w.found? read =
        some (some ((read body).mapError .body), { w with splitter, buffer }) := by
  obtain ⟨piece, sound'⟩ := Splitter.front_owed sound w.buffer
  generalize next : w.splitter.next w.buffer = out at piece sound'
  obtain ⟨found, splitter, buffer⟩ := out
  obtain ⟨rfl, same⟩ := Prod.mk.inj (whole.symm.trans piece)
  refine ⟨splitter, buffer, sound', same.symm, ?_⟩
  unfold found? Wire.decodeNext
  rw [next]
  dsimp only
  cases read body <;> rfl

end Wired

namespace ControllerEnd

variable {w w' : ControllerEnd} {m : Move} {body rest : List UInt8}

theorem step?_read_of_body (reads : w.side.readerGone = false)
    (sound : w.splitter.IsSound)
    (whole : front w.undecoded = (.body body, rest)) :
    ∃ splitter buffer, splitter.IsSound ∧ splitter.owed buffer = rest ∧
      w.step? .read = some { w with
        side := w.side.hear (decodeReply body), splitter, buffer } := by
  obtain ⟨splitter, buffer, sound', same, found⟩ :=
    Wired.found?_of_body decodeReply sound whole
  refine ⟨splitter, buffer, sound', same, ?_⟩
  simp only [step?, reads, found]
  cases decodeReply body <;>
    simp [Except.mapError, act?, Controller.step?, Controller.hear, reads,
      Controller.ReaderEnd.disconnect]

/-- Nothing is taken off the stream, and no call is completed
but by failing it. -/
structure IsAside (w w' : ControllerEnd) : Prop where
  sound : w'.splitter.IsSound
  unread : w'.side.readerGone = false →
    w.side.readerGone = false ∧ w'.unread = w.unread
  completed : ∀ e ∈ w'.side.calls.completed, e ∈ w.side.calls.completed ∨
    e.2.IsCutOff

/-- What closes the table takes nothing off the stream. -/
theorem isAside_of_close {why : Disconnect} (sound : w'.splitter.IsSound)
    (unread : w'.side.readerGone = false →
      w.side.readerGone = false ∧ w'.unread = w.unread)
    (closes : w'.side.calls = w.side.calls.close why) : w.IsAside w' := by
  refine ⟨sound, unread, fun e listed => ?_⟩
  rw [closes] at listed
  exact CallTable.isCutOff_of_close listed

theorem isAside_of_step? (sound : w.splitter.IsSound) (h : w.step? m = some w')
    (aside : m = .read → ∀ body, (front w.undecoded).1 ≠ .body body) :
    w.IsAside w' := by
  cases m with
  | pull n =>
      simp only [step?] at h
      split_ifs at h
      obtain ⟨bs, rest, bytes, -, rfl⟩ := Wired.pull?_eq_some h
      refine ⟨sound, fun reads => ⟨reads, ?_⟩, fun _ => .inl⟩
      show w.splitter.owed (w.buffer ++ bs) ++ rest = w.unread
      rw [Splitter.owed_append, List.append_assoc, ← bytes]
      rfl
  | read =>
      simp only [step?] at h
      split_ifs at h
      split at h
      case h_1 r _ found =>
          obtain ⟨splitter, buffer, -, -, finds⟩ := Wired.found?_eq_some sound found
          cases finds with
          | message whole => exact absurd (congrArg Prod.fst whole) (aside rfl _)
      case h_2 found | h_3 found =>
          -- without a body in front there is a fault, or the end
          obtain ⟨splitter, buffer, rfl, sound', -⟩ :=
            Wired.found?_eq_some sound found
          obtain ⟨c, act, rfl⟩ := act?_eq_some h
          cases Controller.step_of_step? act
          refine isAside_of_close sound' (fun reads => ?_) rfl
          cases reads
      case h_4 => cases h
  | stop =>
      obtain ⟨c, act, rfl⟩ := act?_eq_some h
      cases Controller.step_of_step? act
      refine isAside_of_close sound (fun reads => ?_) rfl
      cases reads
  | take =>
      obtain ⟨w₁, taken, h⟩ := Option.bind_eq_some_iff.mp h
      obtain ⟨c, act, rfl⟩ := act?_eq_some taken
      cases Controller.step_of_step? act with
      | @take r rest alive free next =>
          simp only [Wire.appendFrame_eq (Wire.length_encodeRequest r),
            List.nil_append] at h
          cases h
          exact ⟨sound, fun reads => ⟨reads, rfl⟩, fun _ => .inl⟩
  | push n =>
      obtain ⟨bs, rest, -, -, -, rfl⟩ := Wired.push?_eq_some h
      exact ⟨sound, fun reads => ⟨reads, rfl⟩, fun _ => .inl⟩
  | fail =>
      simp only [step?] at h
      split_ifs at h
      obtain ⟨w₁, failed, rfl⟩ := Option.map_eq_some_iff.mp h
      obtain ⟨c, act, rfl⟩ := act?_eq_some failed
      cases Controller.step_of_step? act
      exact isAside_of_close sound (fun reads => ⟨reads, rfl⟩) rfl
  | flush =>
      simp only [step?] at h
      split_ifs at h
      obtain ⟨c, act, rfl⟩ := act?_eq_some h
      cases Controller.step_of_step? act
      exact ⟨sound, fun reads => ⟨reads, rfl⟩, fun _ => .inl⟩
  | finish =>
      obtain ⟨w₁, done, rfl⟩ := Option.map_eq_some_iff.mp h
      obtain ⟨c, act, rfl⟩ := act?_eq_some done
      cases Controller.step_of_step? act
      exact ⟨sound, fun reads => ⟨reads, rfl⟩, fun _ => .inl⟩
  | release =>
      simp only [step?] at h
      split_ifs at h
      cases h
      exact ⟨sound, fun reads => ⟨reads, rfl⟩, fun _ => .inl⟩

end ControllerEnd

/-! ## One echo -/

/-- How a request that comes back breaks the rules of the call that it meets. -/
def Exchange.echoed : Exchange → Violation
  | .lookup => .neitherField
  | .health => .wrongKind

/-- What the controller makes of a request that comes back. -/
inductive Echoed (c : Controller) : Request → Controller → Prop
  | unknown {id pid} (absent : ∀ entry ∈ c.calls.pending, entry.1 ≠ id) :
      Echoed c (.lookup id pid)
        { c with calls := { c.calls with violations := c.calls.violations + 1 } }
  | known {id pid call} (there : (id, call) ∈ c.calls.pending) :
      Echoed c (.lookup id pid) { c with calls := { c.calls with
        pending := c.calls.pending.filter (·.1 ≠ id)
        violations := c.calls.violations + 1
        completed :=
          (call.number,
            .failed call.exchange (.contract call.exchange.echoed.text)) ::
            c.calls.completed } }
  | health {id} :
      Echoed c (.health id) { c with
        calls := { c.calls with
          pending := [], closed := true
          completed := (c.calls.pending.map fun (_, call) =>
            (call.number, Completion.failed call.exchange
              (.transport "undecodable reply"))).reverse ++
              c.calls.completed }
        readerGone := true }

theorem echoed_hear (c : Controller) (q : Request) :
    Echoed c q (c.hear (decodeReply (encodeRequest q))) := by
  cases q with
  | lookup id pid =>
      rw [Wire.decodeReply_lookup, Controller.hear]
      cases found : c.calls.remove id with
      | none =>
          have absent := CallTable.remove_eq_none.mp found
          rw [CallTable.receive_of_foreign (r := .lookup ⟨id, none, none⟩) absent]
          exact .unknown absent
      | some out =>
          obtain ⟨⟨n, x⟩, t⟩ := out
          have there := (CallTable.remove_eq_some found).1
          rw [CallTable.receive_of_remove (r := .lookup ⟨id, none, none⟩) found]
          cases x <;> exact .known there
  | health id =>
      rw [Wire.decodeReply_health, Controller.hear, CallTable.close,
        CallTable.failAll_eq, List.map_map]
      exact .health

/-- No verdict on an echo is an answer. -/
theorem not_isAnswer_echo {q : Request} {r : Reply}
    (read : decodeReply (encodeRequest q) = .ok r)
    (x : Exchange) : ¬(r.verdict x).IsAnswer := by
  cases q with
  | lookup id pid =>
      rw [Wire.decodeReply_lookup] at read
      cases read
      cases x <;> rintro ⟨⟩
  | health id =>
      rw [Wire.decodeReply_health] at read
      cases read

/-! ## Runs -/

namespace Dispatch

variable {inbound outbound : Nat} {d t : Dispatch} {e : Event} {es : List Event}
  {ws body : List UInt8} {bodies sent : List (List UInt8)}

/-- What the far end writes. -/
def Event.written : Event → List UInt8
  | .write bs => bs
  | _ => []

def written (es : List Event) : List UInt8 := es.flatMap Event.written

/-- The body that an event takes off the stream. -/
def taken (d : Dispatch) : Event → List (List UInt8)
  | .move .read =>
    match (front d.wired.undecoded).1 with
    | .body body => [body]
    | _ => []
  | _ => []

/-- The bodies that the reader takes off the stream in a run, oldest first. -/
def heard (inbound outbound : Nat) (es : List Event) : List (List UInt8) :=
  Run.gather step? taken (fresh inbound outbound) es

/-- An answer that is in one of the bodies, which is no request that came back. -/
def IsEarned (bodies : List (List UInt8)) (o : Completion) : Prop :=
  ∃ body ∈ bodies, (∀ q, body ≠ encodeRequest q) ∧ ∃ r x, decodeReply body = .ok r ∧
    o = r.verdict x

/-- The bodies that have been taken are in front of what is still to come, and all
answers are in them. -/
structure IsHearing (ws : List UInt8) (bodies : List (List UInt8))
    (d : Dispatch) : Prop where
  sound : d.wired.splitter.IsSound
  short : ∀ body ∈ bodies, body.length ≤ maxBody
  stream : ∃ rest, ws = bodies.flatMap frame ++ rest ∧
    (d.wired.side.readerGone = false → rest = d.wired.unread)
  earned : ∀ e ∈ d.wired.side.calls.completed, e.2.IsAnswer → IsEarned bodies e.2

theorem isHearing_fresh : IsHearing [] [] (fresh inbound outbound) where
  sound := Splitter.isSound_fresh
  short := by simp
  stream := ⟨[], rfl, fun _ => rfl⟩
  earned := by simp [fresh, Endpoint.fresh, Controller.fresh, CallTable.empty]

theorem IsEarned.append {o : Completion} (h : IsEarned bodies o)
    (more : List (List UInt8)) :
    IsEarned (bodies ++ more) o := by
  obtain ⟨body, listed, earned⟩ := h
  exact ⟨body, List.mem_append_left _ listed, earned⟩

/-- What takes nothing off the stream leaves the bodies and the
answers as they are. -/
theorem IsHearing.aside (h : IsHearing ws bodies d)
    (aside : d.wired.IsAside t.wired) :
    IsHearing (ws ++ []) (bodies ++ []) t := by
  rw [List.append_nil, List.append_nil]
  obtain ⟨rest, split, all⟩ := h.stream
  refine ⟨aside.sound, h.short, ⟨rest, split, fun reads => ?_⟩, ?_⟩
  · obtain ⟨read, same⟩ := aside.unread reads
    rw [same]
    exact all read
  · intro e listed answer
    rcases aside.completed e listed with old | cut
    · exact h.earned e old answer
    · exact absurd answer cut.not_isAnswer

theorem IsHearing.write {bs : List UInt8} (h : IsHearing ws bodies d)
    (step : d.step? (.write bs) = some t) :
    IsHearing (ws ++ bs) (bodies ++ []) t := by
  rw [List.append_nil]
  simp only [step?] at step
  split_ifs at step
  obtain ⟨pipe, put, rfl⟩ := Option.map_eq_some_iff.mp step
  unfold Pipe.put? at put
  split_ifs at put
  cases put
  obtain ⟨rest, split, all⟩ := h.stream
  refine ⟨h.sound, h.short, ⟨rest ++ bs, ?_, fun reads => ?_⟩, h.earned⟩
  · rw [split, List.append_assoc]
  · rw [all reads, Wired.unread, List.append_assoc]
    rfl

/-- A body that is taken was in front, and what it answers it says,
unless it is an echo. -/
theorem IsHearing.read {rest : List UInt8} (h : IsHearing ws bodies d)
    (step : d.step? (.move .read) = some t)
    (whole : front d.wired.undecoded = (.body body, rest)) :
    IsHearing (ws ++ []) (bodies ++ [body]) t := by
  rw [List.append_nil]
  obtain ⟨w, moved, rfl⟩ := Option.map_eq_some_iff.mp step
  have reads : d.wired.side.readerGone = false := by
    by_contra gone
    simp [ControllerEnd.step?, gone] at moved
  obtain ⟨splitter, buffer, sound, same, heard⟩ :=
    ControllerEnd.step?_read_of_body reads h.sound whole
  cases heard.symm.trans moved
  obtain ⟨left, split, all⟩ := h.stream
  obtain ⟨framed, fits⟩ := Wire.eq_of_front_body whole
  refine ⟨sound, ?_, ⟨rest ++ d.wired.inbound.bytes, ?_, fun _ => ?_⟩, ?_⟩
  · exact List.forall_mem_append.mpr ⟨h.short, List.forall_mem_singleton.mpr fits⟩
  · rw [split, all reads, Wired.unread, framed, List.flatMap_append,
      List.flatMap_singleton, List.append_assoc, List.append_assoc]
  · show _ = splitter.owed buffer ++ _
    rw [same]
  · intro e listed answer
    cases said : decodeReply body with
    | error f =>
        rw [said] at listed
        rcases CallTable.isCutOff_of_close listed with old | cut
        · exact (h.earned e old answer).append _
        · exact absurd answer cut.not_isAnswer
    | ok r =>
        rw [said] at listed
        rcases CallTable.completed_receive listed with old | ⟨x, verdict⟩
        · exact (h.earned e old answer).append _
        · -- on an echo the verdict would have been no answer
          refine ⟨body, by simp, ?_, r, x, said, verdict⟩
          rintro q rfl
          rw [verdict] at answer
          exact not_isAnswer_echo said x answer

theorem taken_read_eq_iff :
    d.taken (.move .read) = [body] ↔ (front d.wired.undecoded).1 = .body body := by
  unfold taken
  cases (front d.wired.undecoded).1 <;> simp

theorem taken_read_eq_nil
    (none : ∀ body, (front d.wired.undecoded).1 ≠ .body body) :
    d.taken (.move .read) = [] := by
  show (match (front d.wired.undecoded).1 with
    | .body body => [body]
    | _ => []) = []
  split
  case h_1 body found => exact absurd found (none body)
  case h_2 => rfl

theorem IsHearing.move {m : ControllerEnd.Move} (h : IsHearing ws bodies d)
    (step : d.step? (.move m) = some t) :
    IsHearing (ws ++ []) (bodies ++ d.taken (.move m)) t := by
  by_cases reads : m = .read ∧ ∃ body, (front d.wired.undecoded).1 = .body body
  case pos =>
      obtain ⟨rfl, body, found⟩ := reads
      rw [taken_read_eq_iff.mpr found]
      exact h.read step (Prod.ext found rfl)
  case neg =>
      have nothing : d.taken (.move m) = [] := by
        cases m with
        | read => exact taken_read_eq_nil fun body found => reads ⟨rfl, body, found⟩
        | _ => rfl
      obtain ⟨w, moved, rfl⟩ := Option.map_eq_some_iff.mp step
      rw [nothing]
      refine h.aside (ControllerEnd.isAside_of_step? h.sound moved ?_)
      exact fun read body found => reads ⟨read, body, found⟩

theorem IsHearing.step (h : IsHearing ws bodies d) (step : d.step? e = some t) :
    IsHearing (ws ++ e.written) (bodies ++ d.taken e) t := by
  cases e with
  | move m => exact h.move step
  | write bs => exact h.write step
  | lookup pid | health =>
      cases step_of_step? step with
      | call =>
          refine h.aside
            ⟨h.sound, fun reads => ⟨?_, rfl⟩, fun _ => Controller.isCutOff_of_call⟩
          exact (Controller.call_readerGone _ _ _).symm.trans reads
  | close | leave =>
      cases step
      exact h.aside ⟨h.sound, fun reads => ⟨reads, rfl⟩, fun _ => .inl⟩
  | drop | read n | finish =>
      cases step_of_step? step with
      | call _ made => cases made
      | _ => exact h.aside ⟨h.sound, fun reads => ⟨reads, rfl⟩, fun _ => .inl⟩

theorem isHearing_of_run (run : es.foldlM step? (fresh inbound outbound) = some d) :
    IsHearing (written es) (heard inbound outbound es) d := by
  refine Run.induct (P := fun es d =>
    IsHearing (written es) (heard inbound outbound es) d) isHearing_fresh ?_ run
  intro es d e t first hearing step
  have bytes : written (es ++ [e]) = written es ++ e.written := by simp [written]
  rw [bytes, heard, Run.gather_concat first]
  exact hearing.step step

/-- In every run, whatever the far end writes: if it writes the frames of some
bodies, the reader takes these bodies, in their order, and whatever is answered
is in one of them that is no request of the controller. Wherever one of them is
such a request the reader can take it, and what that does is `Echoed`: a lookup
is read as a reply without a bundle id and without a failure, a health check is
not read as a reply. -/
theorem echoes_answer_nothing
    (run : es.foldlM step? (fresh inbound outbound) = some d) :
    (∀ sent : List (List UInt8), (∀ b ∈ sent, b.length ≤ maxBody) →
      written es <+: sent.flatMap frame →
      heard inbound outbound es <+: sent) ∧
    (∀ n o, (n, o) ∈ d.wired.side.calls.completed → o.IsAnswer →
      IsEarned (heard inbound outbound es) o) ∧
    (∀ q, d.taken (.move .read) = [encodeRequest q] →
      d.wired.side.readerGone = false →
      ∃ t, d.step? (.move .read) = some t ∧ Echoed d.wired.side q t.wired.side) ∧
    (∀ id pid, decodeReply (encodeRequest (.lookup id pid)) =
      .ok (.lookup ⟨id, none, none⟩)) ∧
    ∀ id, decodeReply (encodeRequest (.health id)) =
      .error (.missingField "status") := by
  have hearing := isHearing_of_run run
  refine ⟨?_, fun n o listed =>
    hearing.earned (n, o) listed, ?_, Wire.decodeReply_lookup,
    Wire.decodeReply_health⟩
  · intro sent fits begins
    obtain ⟨rest, split, -⟩ := hearing.stream
    refine Wire.prefix_of_frames hearing.short fits (List.IsPrefix.trans ?_ begins)
    rw [split]
    exact List.prefix_append _ _
  · intro q found reads
    have whole : front d.wired.undecoded =
        (.body (encodeRequest q), (front d.wired.undecoded).2) :=
      Prod.ext (taken_read_eq_iff.mp found) rfl
    obtain ⟨splitter, buffer, -, -, moved⟩ :=
      ControllerEnd.step?_read_of_body reads hearing.sound whole
    refine ⟨_, Option.map_eq_some_iff.mpr ⟨_, moved, rfl⟩, ?_⟩
    exact echoed_hear d.wired.side q

/-- A request that comes back twice, the answer to another one, and a health check
that comes back. -/
def mixedBodies : List (List UInt8) :=
  [encodeRequest (.lookup 0 7), encodeRequest (.lookup 0 7),
    Wire.encodeReply (.lookup (.found 1 "a.b")), encodeRequest (.health 2)]

def mixedUp : List Event :=
  [.lookup 7, .lookup 8, .health, .move .take, .write (mixedBodies.flatMap frame),
    .move (.pull 30), .move .read, .lookup 9, .move (.pull 70), .move .read,
    .move .read, .move (.pull 8)]

theorem mixedUp_unanswered :
    ∃ d t, mixedUp.foldlM step? (fresh 200 10) = some d ∧
      heard 200 10 mixedUp <+: mixedBodies ∧
      d.step? (.move .read) = some t ∧
      Echoed d.wired.side (.health 2) t.wired.side := by
  have ends : (mixedUp.foldlM step? (fresh 200 10)).any (fun d =>
      d.taken (.move .read) = [encodeRequest (.health 2)] ∧
      d.wired.side.readerGone = false) = true := by
    decide +kernel
  obtain ⟨d, run, found⟩ := (Option.any_eq_true _ _).mp ends
  obtain ⟨found, reads⟩ := of_decide_eq_true found
  have bytes : written mixedUp = mixedBodies.flatMap frame := List.append_nil _
  obtain ⟨bodies, -, echo, -⟩ := echoes_answer_nothing run
  obtain ⟨t, step, echoed⟩ := echo (.health 2) found reads
  exact ⟨d, t, run, bodies mixedBodies (by decide +kernel)
    (bytes ▸ List.prefix_refl _), step, echoed⟩

end Dispatch

end ElementAgent

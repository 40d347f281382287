import ElementAgent.Proofs.Agent.Oversize
import ElementAgent.Wire.Codec

/-!
# Encoding is all or nothing

Main statements:

* **one message** is appended to the buffer as a whole, or the buffer stays as it
  is (`Codec.encode_of_fits`, `Codec.encode_of_long`);
* **many**: what is encoded is what would be without those that are too long
  (`Codec.encodeAll_eq`);
* **both ends** have the same limit, each writes what the other reads, and the
  writer of a controller does not end because of a request (`encoding_whole`).
-/

namespace ElementAgent

namespace Wire

namespace Codec

variable {Out In : Type} {c : Codec Out In} {a : Out} {buffer : List UInt8}

theorem encode_of_fits (fits : (c.write a).length ≤ maxBody) (buffer : List UInt8) :
    (c.encode a).run.run buffer = (.ok (), buffer ++ frame (c.write a)) := by
  have short : ¬maxBody < (c.write a).length := Nat.not_lt.mpr fits
  have written : (c.encode a).run.run buffer =
      (.ok (), buffer ++ bigEndian 4 (c.write a).length ++ c.write a) := by
    rw [encode]
    simp only [if_neg short]
    rfl
  rw [written, frame, List.append_assoc]

theorem encode_of_long (long : maxBody < (c.write a).length) (buffer : List UInt8) :
    (c.encode a).run.run buffer = (.error .oversizeBody, buffer) := by
  rw [encode]
  simp only [if_pos long]
  rfl

/-- The frames that the ends of a connection send are what their codecs encode. -/
theorem encode_eq_appendFrame (a : Out) (buffer : List UInt8) :
    (c.encode a).run.run buffer =
      match appendFrame buffer (c.write a) with
      | .ok written => (.ok (), written)
      | .error fault => (.error fault, buffer) := by
  by_cases fits : (c.write a).length ≤ maxBody
  · rw [encode_of_fits fits, appendFrame_eq fits]
  · rw [encode_of_long (Nat.lt_of_not_le fits), appendFrame, if_neg fits]

/-- What becomes of a message, whatever is in the buffer. -/
def outcome (c : Codec Out In) (a : Out) : Except CodecFault Unit :=
  if (c.write a).length ≤ maxBody then .ok () else .error .oversizeBody

/-- The messages that can be encoded. -/
def fitting (c : Codec Out In) (as : List Out) : List Out :=
  as.filter fun a => (c.write a).length ≤ maxBody

/-- Messages are encoded each by itself: the buffer gets the frames of those that
are short enough. -/
theorem encodeAll_eq (as : List Out) (buffer : List UInt8) :
    (c.encodeAll as).run buffer =
      (as.map c.outcome, buffer ++ frames c.write (c.fitting as)) := by
  induction as generalizing buffer with
  | nil =>
      show ([], buffer) = ([], buffer ++ [])
      rw [List.append_nil]
  | cons a as ih =>
      have first : (c.encodeAll (a :: as)).run buffer =
          (((c.encode a).run.run buffer).1 ::
            ((c.encodeAll as).run ((c.encode a).run.run buffer).2).1,
            ((c.encodeAll as).run ((c.encode a).run.run buffer).2).2) := rfl
      by_cases fits : (c.write a).length ≤ maxBody
      · have kept : c.fitting (a :: as) = a :: c.fitting as :=
          List.filter_cons_of_pos (by simpa using fits)
        have front : frames c.write (a :: c.fitting as) =
            frame (c.write a) ++ frames c.write (c.fitting as) := rfl
        rw [first, encode_of_fits fits, ih, kept, front, List.map_cons, outcome,
          if_pos fits, ← List.append_assoc]
      · have dropped : c.fitting (a :: as) = c.fitting as :=
          List.filter_cons_of_neg (by simpa using fits)
        rw [first, encode_of_long (Nat.lt_of_not_le fits), ih, dropped,
          List.map_cons, outcome, if_neg fits]

/-- A codec that encodes messages as a whole or not at all, and only what the
opposite codec reads. -/
structure IsWhole (c : Codec Out In) (opposite : Codec In Out) : Prop where
  /-- Whatever the buffer holds, a message is encoded just if its body is
  not too long. -/
  succeeds : ∀ a buffer, ((c.encode a).run.run buffer).1 = .ok () ↔
    (c.write a).length ≤ maxBody
  /-- The buffer then holds four bytes of length and the body behind
  what it held. -/
  appends : ∀ a buffer, (c.write a).length ≤ maxBody →
    ((c.encode a).run.run buffer).2 =
      buffer ++ (bigEndian 4 (c.write a).length ++ c.write a)
  /-- The opposite codec accepts the length and takes the body for the message,
  whatever follows. -/
  accepted : ∀ a more, (c.write a).length ≤ maxBody →
    decodeNext opposite.read .fresh
      (bigEndian 4 (c.write a).length ++ c.write a ++ more) =
      (.message a, .fresh, more)
  /-- Otherwise the buffer is as it was. -/
  leaves : ∀ a buffer, maxBody < (c.write a).length →
    (c.encode a).run.run buffer = (.error .oversizeBody, buffer)
  /-- Then the messages before it and behind it are encoded as if it had
  not been tried. -/
  forgets : ∀ before a after buffer, maxBody < (c.write a).length →
    ((c.encodeAll (before ++ a :: after)).run buffer).2 =
      ((c.encodeAll (before ++ after)).run buffer).2 ∧
    ((c.encodeAll (before ++ a :: after)).run buffer).1 =
      ((c.encodeAll (before ++ after)).run buffer).1.take before.length ++
        .error .oversizeBody ::
          ((c.encodeAll (before ++ after)).run buffer).1.drop before.length
  /-- Of whatever is encoded, the opposite codec reads the messages that are
  not too long. -/
  delivers : ∀ as, messages opposite.read ((c.encodeAll as).run []).2 =
    as.filter fun a => (c.write a).length ≤ maxBody

/-- A codec whose bodies the opposite codec reads encodes as a whole. -/
theorem isWhole_of_read {opposite : Codec In Out}
    (back : ∀ a, (c.write a).length ≤ maxBody → opposite.read (c.write a) = .ok a) :
    IsWhole c opposite where
  succeeds a buffer := by
    by_cases fits : (c.write a).length ≤ maxBody
    · rw [encode_of_fits fits]
      exact iff_of_true rfl fits
    · rw [encode_of_long (Nat.lt_of_not_le fits)]
      exact iff_of_false nofun fits
  appends a buffer fits := by
    rw [encode_of_fits fits]
    rfl
  accepted a more fits := by
    show decodeNext opposite.read .fresh (frame (c.write a) ++ more) = _
    rw [decodeNext, Splitter.next_frame fits]
    simp only [back a fits]
  leaves a buffer long := encode_of_long long buffer
  forgets before a after buffer long := by
    have never : ¬(c.write a).length ≤ maxBody := Nat.not_le.mpr long
    have dropped : c.fitting (before ++ a :: after) =
        c.fitting (before ++ after) := by
      rw [fitting, List.filter_append,
        List.filter_cons_of_neg (by simpa using never),
        ← List.filter_append, ← fitting]
    simp only [encodeAll_eq, dropped, List.map_append, List.map_cons, true_and]
    have length : before.length = (before.map c.outcome).length :=
      (List.length_map _).symm
    rw [length, List.take_left, List.drop_left, outcome, if_neg never]
  delivers as := by
    rw [encodeAll_eq, List.nil_append]
    have readable : ∀ a ∈ c.fitting as, (c.write a).length ≤ maxBody ∧
        opposite.read (c.write a) = .ok a := by
      intro a listed
      have fits : (c.write a).length ≤ maxBody := by
        simpa using (List.mem_filter.mp listed).2
      exact ⟨fits, back a fits⟩
    have all := messages_frames [] readable
    rwa [List.append_nil, messages_nil, List.append_nil] at all

theorem isWhole_controller : IsWhole controller agent :=
  isWhole_of_read fun r _ => decodeRequest_encodeRequest r

theorem isWhole_agent : IsWhole agent controller :=
  isWhole_of_read fun _ => decodeReply_encodeReply

end Codec

/-- A header is refused just if it announces a body that would not be encoded. -/
theorem next_header_eq_oversize_iff {n : Nat} (small : n < byteRange 4)
    (more : List UInt8) :
    (Splitter.fresh.next (bigEndian 4 n ++ more)).1 = .oversize ↔ maxBody < n := by
  have header : ofBigEndian (bigEndian 4 n) = n := by
    rw [ofBigEndian_bigEndian, Nat.mod_eq_of_lt small]
  simp only [bigEndian] at header
  simp only [bigEndian, List.cons_append, List.nil_append, Splitter.next,
    Splitter.fresh]
  rw [header]
  by_cases long : maxBody < n
  · simp [long]
  · refine iff_of_false (fun refused => ?_) long
    rw [if_neg long, Splitter.takeBody] at refused
    split_ifs at refused

end Wire

/-! ## The writer of a controller -/

namespace Wired

variable {σ α : Type} {w w' : Wired σ}
  {read : List UInt8 → Except MessagePack.Fault α}

/-- Looking for a message leaves the end's own state alone. -/
theorem side_of_found? {what : Option (Except Wire.CodecFault α)}
    (found : w.found? read = some (what, w')) :
    w'.side = w.side := by
  unfold found? at found
  split at found
  · cases found
    rfl
  · cases found
    rfl
  · dsimp only at found
    split_ifs at found
    split at found
    all_goals
      cases found
      rfl

end Wired

namespace ControllerEnd

open Wire (encodeRequest frame)

variable {w w' : ControllerEnd} {m : Move}

/-- A request that the writer takes is encoded. -/
theorem sending_of_take (step : w.step? .take = some w') :
    ∃ r rest, w.side.queue = r :: rest ∧ w' = { w with
      side := { w.side with writing := some r, queue := rest },
      sending := frame (encodeRequest r) } := by
  obtain ⟨w₁, taken, sent⟩ := Option.bind_eq_some_iff.mp step
  obtain ⟨c, act, rfl⟩ := act?_eq_some taken
  cases Controller.step_of_step? act with
  | @take r rest alive free next =>
      simp only [Wire.appendFrame_eq (Wire.length_encodeRequest r),
        List.nil_append] at sent
      cases sent
      exact ⟨r, rest, next, rfl⟩

/-- The writer ends where the far end is gone, or where the controller was dropped
and nothing is left to write. -/
theorem writer_ends (step : w.step? m = some w') (alive : w.side.writerGone = false)
    (gone : w'.side.writerGone = true) :
    (m = .fail ∧ w.outbound.readerHeld = false) ∨
      (m = .finish ∧ w.side.dropped = true ∧ w.side.queue = []) := by
  -- a move that leaves the writer as it was
  have still (same : w'.side.writerGone = w.side.writerGone) : False := by
    simp [same, alive] at gone
  cases m with
  | pull n =>
      simp only [step?] at step
      split_ifs at step
      obtain ⟨bs, rest, bytes, some, rfl⟩ := Wired.pull?_eq_some step
      exact (still rfl).elim
  | read =>
      simp only [step?] at step
      split_ifs at step
      refine (still ?_).elim
      split at step
      case h_1 found | h_2 found | h_3 found =>
          have same := Wired.side_of_found? found
          obtain ⟨c, act, rfl⟩ := act?_eq_some step
          rw [same] at act
          cases Controller.step_of_step? act
          rfl
      case h_4 => cases step
  | stop =>
      obtain ⟨c, act, rfl⟩ := act?_eq_some step
      cases Controller.step_of_step? act
      exact (still rfl).elim
  | take =>
      obtain ⟨r, rest, next, rfl⟩ := sending_of_take step
      exact (still rfl).elim
  | push n =>
      obtain ⟨bs, rest, bytes, some, held, rfl⟩ := Wired.push?_eq_some step
      exact (still rfl).elim
  | fail =>
      simp only [step?] at step
      split_ifs at step with stuck
      simp only [Wired.isStuck, Bool.and_eq_true, Bool.not_eq_true'] at stuck
      exact .inl ⟨rfl, stuck.2⟩
  | flush =>
      simp only [step?] at step
      split_ifs at step
      obtain ⟨c, act, rfl⟩ := act?_eq_some step
      cases Controller.step_of_step? act
      exact (still rfl).elim
  | finish =>
      obtain ⟨w₁, done, rfl⟩ := Option.map_eq_some_iff.mp step
      obtain ⟨c, act, rfl⟩ := act?_eq_some done
      cases Controller.step_of_step? act with
      | writerDone _ _ written dropped => exact .inr ⟨rfl, dropped, written⟩
  | release =>
      simp only [step?] at step
      split_ifs at step
      cases step
      exact (still rfl).elim

end ControllerEnd

/-! ## Both ends -/

open Wire (Codec Splitter encodeRequest encodeReply maxBody)

/-- Encoding is all or nothing at both ends. A message is encoded just if its body
is no longer than the opposite decoder accepts; otherwise the buffer is as it was,
and what is encoded later is as if it had not been tried. Every request is
encoded: a writer that takes one sends it, and ends only where its bytes can go
nowhere or nothing is left to write. -/
theorem encoding_whole :
    Codec.controller.IsWhole Codec.agent ∧ Codec.agent.IsWhole Codec.controller ∧
    (∀ n < 0x100000000, ∀ more, (Splitter.fresh.next (bigEndian 4 n ++ more)).1 =
      .oversize ↔ maxBody < n) ∧
    (∀ r buffer, (Codec.controller.encode r).run.run buffer =
      (.ok (),
        buffer ++ (bigEndian 4 (encodeRequest r).length ++ encodeRequest r))) ∧
    (∀ w w' : ControllerEnd, w.step? .take = some w' →
      ∃ r rest, w.side.queue = r :: rest ∧ w' = { w with
      side := { w.side with writing := some r, queue := rest }
      sending := bigEndian 4 (encodeRequest r).length ++ encodeRequest r }) ∧
    ∀ (w w' : ControllerEnd) m, w.step? m = some w' → w.side.writerGone = false →
      w'.side.writerGone = true →
      (m = .fail ∧ w.outbound.readerHeld = false) ∨
        (m = .finish ∧ w.side.dropped = true ∧ w.side.queue = []) :=
  ⟨Codec.isWhole_controller, Codec.isWhole_agent,
    fun _ small => Wire.next_header_eq_oversize_iff small,
    fun r => Codec.encode_of_fits (Wire.length_encodeRequest r), fun _ _ =>
      ControllerEnd.sending_of_take,
    fun _ _ _ => ControllerEnd.writer_ends⟩

/-- A report with a version of `n` bytes. -/
def longReport (n : Nat) : Reply := .health ⟨0, "ok", Talk.giant n⟩

open MessagePack (writeText writeUnsigned) in
theorem length_longReport {n : Nat} (long : 0x100 ≤ n) (short : n < 0x10000) :
    (encodeReply (longReport n)).length = n + 34 := by
  have keys : (writeText "health").length + (writeText "id").length +
      (writeText "status").length +
      (writeText "ok").length + (writeText "version").length +
        (writeUnsigned (0 : UInt64).toNat).length = 29 := by
    decide
  have version : (writeText (Talk.giant n)).length = n + 3 := by
    rw [writeText, List.length_append, Talk.length_giant, MessagePack.textHeader,
      if_neg (by omega), if_neg (by omega), if_pos short, List.length_cons,
      length_bigEndian]
    omega
  simp only [longReport, encodeReply, MessagePack.writeMap, MessagePack.mapHeader,
    List.flatMap_cons, List.flatMap_nil, List.length_append, List.length_cons,
    List.length_nil, version]
  simp only [Nat.reduceAdd, Nat.reduceLT, if_true, List.length_cons,
    List.length_nil]
  omega

/-- A controller that cannot get rid of what it has to send. -/
def stranded : ControllerEnd :=
  { side := { Controller.fresh with writing := some (.health 1) }
    splitter := .fresh, buffer := [], sending := [0x00]
    inbound := .fresh 8, outbound := { Pipe.fresh 8 with readerHeld := false } }

/-- A controller with the largest of all requests in its queue. -/
def laden : ControllerEnd :=
  { side := { Controller.fresh with
    queue := [.lookup 0xFFFFFFFFFFFFFFFF (-0x80000000)] }
    splitter := .fresh, buffer := [], sending := []
    inbound := .fresh 8, outbound := .fresh 8 }

/-- A report of 65536 bytes is encoded behind whatever is in the buffer, and one
of 65537 bytes leaves no trace, neither there nor for the report behind it. The
laden controller sends its request; the stranded one ends for want of a reader. -/
theorem longReports_encoded :
    (((Codec.agent.encode (longReport 65502)).run.run [0x2a]).1 = .ok ()) ∧
    ((Codec.agent.encode (longReport 65503)).run.run [0x2a] =
      (.error .oversizeBody, [0x2a])) ∧
    ((Codec.agent.encodeAll [longReport 300, longReport 65503, longReport 301]).run
      [0x2a]).2 =
      ((Codec.agent.encodeAll [longReport 300, longReport 301]).run [0x2a]).2 ∧
    (∃ w, laden.step? .take = some w ∧
      ∃ r rest, laden.side.queue = r :: rest ∧ w.side.writing = some r) ∧
    ∃ w, stranded.step? .fail = some w ∧ w.side.writerGone = true ∧
      stranded.outbound.readerHeld = false := by
  have write : Codec.agent.write = encodeReply := rfl
  have fits : (Codec.agent.write (longReport 65502)).length ≤ maxBody := by
    rw [write, length_longReport (by decide) (by decide)]
    decide
  have long : maxBody < (Codec.agent.write (longReport 65503)).length := by
    rw [write, length_longReport (by decide) (by decide)]
    decide
  have taken : ∃ w, laden.step? .take = some w := ⟨_, rfl⟩
  have failed : ∃ w, stranded.step? .fail = some w ∧ w.side.writerGone = true :=
    ⟨_, rfl, rfl⟩
  obtain ⟨-, agent, -, -, takes, ends⟩ := encoding_whole
  refine ⟨(agent.succeeds _ _).mpr fits, agent.leaves _ _ long,
    (agent.forgets [_] _ [_] _ long).1, ?_, ?_⟩
  · obtain ⟨w, step⟩ := taken
    obtain ⟨r, rest, next, same⟩ := takes _ _ step
    exact ⟨w, step, r, rest, next, by rw [same]⟩
  · obtain ⟨w, step, gone⟩ := failed
    rcases ends _ _ _ step rfl gone with ⟨-, held⟩ | ⟨other, -⟩
    · exact ⟨w, step, gone, held⟩
    · cases other

end ElementAgent

import ElementAgent.Link.AgentEnd
import ElementAgent.Link.ControllerEnd
import ElementAgent.Proofs.Agent.Accounts
import ElementAgent.Proofs.Wire.RoundTrip

/-!
# What the ends of a connection do to their bytes

Main statements:

* **bytes**: reading takes bytes off the front of the inbound pipe, writing
  appends to the outbound pipe (`Wired.pull?_eq_some`, `Wired.push?_eq_some`);
* **messages**: what a reader finds stands at the front of what it has not decoded
  (`Wired.found?_eq_some`), and where it finds nothing there is no whole frame
  (`Wired.found?_eq_none`);
* **moves**: what each move of an agent or a controller does, and when
  (`AgentEnd.Step`, `ControllerEnd.Step`).
-/

namespace ElementAgent

open Wire (Splitter Piece front frame maxBody)

/-- Bytes that have been read and whose messages have not been found. -/
def Endpoint.undecoded {σ : Type} (e : Endpoint σ) : List UInt8 :=
  e.splitter.owed e.buffer

namespace Wired

variable {σ α : Type} {w w' : Wired σ} {n : Nat}
  {read : List UInt8 → Except MessagePack.Fault α}

theorem pull?_eq_some (h : w.pull? n = some w') :
    ∃ bs rest, w.inbound.bytes = bs ++ rest ∧ bs ≠ [] ∧
      w' = { w with
        buffer := w.buffer ++ bs, inbound := { w.inbound with bytes := rest } } := by
  unfold pull? Pipe.take? at h
  split_ifs at h with zero enough
  · cases h
    refine ⟨w.inbound.bytes.take n, w.inbound.bytes.drop n, ?_, ?_, rfl⟩
    · rw [List.take_append_drop]
    · intro none
      have count := congrArg List.length none
      simp only [List.length_take, List.length_nil] at count
      omega
  · cases h

theorem push?_eq_some (h : w.push? n = some w') :
    ∃ bs rest, w.sending = bs ++ rest ∧ bs ≠ [] ∧ w.outbound.readerHeld = true ∧
      w' = { w with
        sending := rest,
        outbound := { w.outbound with bytes := w.outbound.bytes ++ bs } } := by
  unfold push? Pipe.put? at h
  split_ifs at h with none room
  · cases h
    refine ⟨w.sending.take n, w.sending.drop n, ?_, ?_, room.1, rfl⟩
    · rw [List.take_append_drop]
    · intro empty
      have count := congrArg List.length empty
      simp only [List.length_take, List.length_nil] at count
      omega
  · cases h

/-- What a reader finds: the message at the front of the stream, or a fault that
hides all that may follow, or the end behind the last message. -/
inductive Finds (read : List UInt8 → Except MessagePack.Fault α) (w : Wired σ) :
    Option (Except Wire.CodecFault α) → Splitter → List UInt8 → Prop
  | message {a body splitter buffer}
      (whole : front w.undecoded = (.body body, splitter.owed buffer))
      (back : read body = .ok a) :
      Finds read w (some (.ok a)) splitter buffer
  | fault {f splitter buffer} (found : (front w.undecoded).1 ≠ .more)
      (hidden : ∀ more, Wire.messages read (w.undecoded ++ more) = []) :
      Finds read w (some (.error f)) splitter buffer
  | leftover {f splitter buffer} (ended : w.inbound.isEnded = true)
      (nothing : Wire.messages read w.undecoded = []) :
      Finds read w (some (.error f)) splitter buffer
  | endOfStream {splitter buffer} (ended : w.inbound.isEnded = true)
      (nothing : Wire.messages read w.undecoded = []) :
      Finds read w none splitter buffer

/-- Where the stream goes on with the frames of messages, and nobody can end it,
the first of them is found. -/
theorem Finds.next {encode : α → List UInt8} {as : List α} {left : List UInt8}
    {what : Option (Except Wire.CodecFault α)} {splitter : Splitter}
    {buffer : List UInt8} (finds : w.Finds read what splitter buffer)
    (readable : ∀ a ∈ as, (encode a).length ≤ maxBody ∧ read (encode a) = .ok a)
    (bytes : w.undecoded ++ left = Wire.frames encode as)
    (held : w.inbound.writerHeld = true) :
    ∃ a as', what = some (.ok a) ∧ as = a :: as' ∧
      splitter.owed buffer ++ left = Wire.frames encode as' := by
  have fits : ∀ a ∈ as, (encode a).length ≤ maxBody :=
    fun a listed => (readable a listed).1
  cases finds with
  | message whole back =>
      obtain ⟨a, as, rest, rfl, piece, left⟩ :=
        Wire.front_frames fits (by rw [whole]; exact Piece.noConfusion) bytes
      rw [whole] at piece
      obtain ⟨same, rfl⟩ := Prod.mk.inj piece
      cases same
      rw [(readable a (List.mem_cons_self ..)).2] at back
      cases back
      exact ⟨_, as, rfl, rfl, left⟩
  | fault found hidden =>
      have listed := Wire.messages_frames [] readable
      obtain ⟨a, as, rest, rfl, -, -⟩ := Wire.front_frames fits found bytes
      rw [← bytes, List.append_nil] at listed
      cases (hidden left).symm.trans listed
  | leftover ended | endOfStream ended =>
      have shut := (Bool.and_eq_true_iff.mp ended).2
      rw [held] at shut
      cases shut

theorem found?_eq_some {what : Option (Except Wire.CodecFault α)}
    (sound : w.splitter.IsSound) (h : w.found? read = some (what, w')) :
    ∃ splitter buffer, w' = { w with splitter, buffer } ∧ splitter.IsSound ∧
      Finds read w what splitter buffer := by
  unfold found? at h
  generalize found : Wire.decodeNext read w.splitter w.buffer = out at h
  obtain ⟨out, splitter, buffer⟩ := out
  obtain ⟨sound', decodes⟩ := Wire.decodes_of_decodeNext sound found
  cases decodes with
  | message whole back =>
      cases h
      exact ⟨splitter, buffer, rfl, sound', .message whole back⟩
  | fault bad hidden =>
      cases h
      exact ⟨splitter, buffer, rfl, sound', .fault bad hidden⟩
  | more short same =>
      have nothing : Wire.messages read w.undecoded = [] :=
        Wire.messages_of_front_more short
      simp only at h
      split_ifs at h with ended
      unfold Wire.decodeLast at h
      generalize again : Wire.decodeNext read splitter buffer = out at h
      obtain ⟨out, splitter', buffer'⟩ := out
      obtain ⟨sound'', decodes⟩ := Wire.decodes_of_decodeNext sound' again
      -- the second look sees what the first one saw
      rw [same] at decodes
      cases decodes with
      | message whole => simp [whole] at short
      | fault bad => exact absurd short bad
      | more =>
          obtain _ | ⟨b, buffer'⟩ := buffer'
          · cases h
            exact ⟨splitter, buffer, rfl, sound', .endOfStream ended nothing⟩
          · cases h
            exact ⟨splitter', b :: buffer', rfl, sound'', .leftover ended nothing⟩

theorem found?_eq_none (sound : w.splitter.IsSound) (h : w.found? read = none) :
    (front w.undecoded).1 = .more := by
  unfold found? at h
  generalize found : Wire.decodeNext read w.splitter w.buffer = out at h
  obtain ⟨out, splitter, buffer⟩ := out
  cases (Wire.decodes_of_decodeNext sound found).2 with
  | more short => exact short
  | message | fault => cases h

/-- A reader that finds something leaves everything else as it is. -/
theorem found?_side {what : Option (Except Wire.CodecFault α)}
    (h : w.found? read = some (what, w')) :
    w'.side = w.side := by
  unfold found? at h
  split at h
  case h_1 | h_2 => cases h; rfl
  case h_3 =>
      simp only at h
      split_ifs at h
      split at h <;> cases h <;> rfl

end Wired

/-! ## An agent -/

namespace AgentEnd

open Agent (Setup)

/-- The agent moves, but neither reads nor writes. -/
inductive IsInner : Agent.Event → Prop
  | grant : IsInner .grant
  | report : IsInner .report
  | begin {n} : IsInner (.begin n)
  | finish {n} : IsInner (.finish n)
  | hand {n} : IsInner (.hand n)
  | writerDone : IsInner .writerDone

/-- What an agent on its pipes can do by itself. -/
inductive Step (s : Setup) (w : AgentEnd) : AgentEnd → Prop
  | pull {bs rest} (ready : w.side.reading = .ready)
      (bytes : w.inbound.bytes = bs ++ rest)
      (some : bs ≠ []) :
      Step s w { w with
        buffer := w.buffer ++ bs, inbound := { w.inbound with bytes := rest } }
  | request {r splitter buffer a} (sound : splitter.IsSound)
      (finds : w.Finds Wire.decodeRequest (some (.ok r)) splitter buffer)
      (act : Agent.Step s w.side (.receive (.request r)) a) :
      Step s w { w with side := a, splitter, buffer }
  | undecodable {f splitter buffer a} (sound : splitter.IsSound)
      (finds : w.Finds Wire.decodeRequest (some (.error f)) splitter buffer)
      (act : Agent.Step s w.side (.receive .undecodable) a) :
      Step s w { w with side := a, splitter, buffer }
  | endOfStream {splitter buffer a} (sound : splitter.IsSound)
      (finds : w.Finds Wire.decodeRequest none splitter buffer)
      (act : Agent.Step s w.side (.receive .endOfStream) a) :
      Step s w { w with side := a, splitter, buffer }
  | inner {e a} (inner : IsInner e) (act : Agent.Step s w.side e a) :
      Step s w { w with side := a }
  | take {r rest} (free : w.side.writing = .idle) (next : w.side.queue = r :: rest)
      (fits : (Wire.encodeReply r).length ≤ maxBody) :
      Step s w { w with
        side := { w.side with writing := .busy r, queue := rest }
        sending := frame (Wire.encodeReply r) }
  | oversize {r rest} (free : w.side.writing = .idle)
      (next : w.side.queue = r :: rest)
      (long : maxBody < (Wire.encodeReply r).length) :
      Step s w { w with side := { w.side with writing := .ended, queue := [] } }
  | push {bs rest} (bytes : w.sending = bs ++ rest) (some : bs ≠ [])
      (held : w.outbound.readerHeld = true) :
      Step s w { w with
        sending := rest,
        outbound := { w.outbound with bytes := w.outbound.bytes ++ bs } }
  | fail {a} (gone : w.outbound.readerHeld = false)
      (act : Agent.Step s w.side .writeFailed a) :
      Step s w { w with side := a, sending := [] }
  | flush {r} (sent : w.sending = []) (busy : w.side.writing = .busy r) :
      Step s w { w with side := { w.side with writing := .idle } }
  | release (served : w.side.isServed = true) (holds : w.holdsPipe = true) :
      Step s w w.letGo

variable {s : Setup} {w w' : AgentEnd} {m : Move}

theorem act?_eq_some {e : Agent.Event} (h : act? s w e = some w') :
    ∃ a, w.side.step? s e = some a ∧ w' = { w with side := a } := by
  obtain ⟨a, act, same⟩ := Option.map_eq_some_iff.mp h
  exact ⟨a, act, same.symm⟩

theorem step_of_act? {e : Agent.Event} (inner : IsInner e)
    (h : act? s w e = some w') :
    Step s w w' := by
  obtain ⟨a, act, rfl⟩ := act?_eq_some h
  exact .inner inner (Agent.step_of_step? act)

theorem step_of_step? (sound : w.splitter.IsSound) (h : w.step? s m = some w') :
    Step s w w' := by
  cases m with
  | pull n =>
      simp only [step?] at h
      split_ifs at h with ready
      obtain ⟨bs, rest, bytes, some, rfl⟩ := Wired.pull?_eq_some h
      exact .pull ready bytes some
  | read =>
      simp only [step?] at h
      split_ifs at h with ready
      split at h
      case h_1 r _ found =>
          obtain ⟨splitter, buffer, rfl, sound, finds⟩ :=
            Wired.found?_eq_some sound found
          obtain ⟨a, act, rfl⟩ := act?_eq_some h
          exact .request sound finds (Agent.step_of_step? act)
      case h_2 f _ found =>
          obtain ⟨splitter, buffer, rfl, sound, finds⟩ :=
            Wired.found?_eq_some sound found
          obtain ⟨a, act, rfl⟩ := act?_eq_some h
          exact .undecodable sound finds (Agent.step_of_step? act)
      case h_3 found =>
          obtain ⟨splitter, buffer, rfl, sound, finds⟩ :=
            Wired.found?_eq_some sound found
          obtain ⟨a, act, rfl⟩ := act?_eq_some h
          exact .endOfStream sound finds (Agent.step_of_step? act)
      case h_4 => cases h
  | grant => exact step_of_act? .grant h
  | report => exact step_of_act? .report h
  | begin n => exact step_of_act? .begin h
  | finish n => exact step_of_act? .finish h
  | hand n => exact step_of_act? .hand h
  | writerDone => exact step_of_act? .writerDone h
  | take =>
      obtain ⟨w₁, taken, h⟩ := Option.bind_eq_some_iff.mp h
      obtain ⟨a, act, rfl⟩ := act?_eq_some taken
      cases Agent.step_of_step? act with
      | @take r rest free next =>
          by_cases fits : (Wire.encodeReply r).length ≤ maxBody
          · simp only [Wire.appendFrame_eq fits, List.nil_append] at h
            cases h
            exact .take free next fits
          · simp only [Wire.appendFrame, if_neg fits] at h
            obtain ⟨a, act, rfl⟩ := act?_eq_some h
            cases Agent.step_of_step? act
            exact .oversize free next (Nat.lt_of_not_le fits)
  | push n =>
      obtain ⟨bs, rest, bytes, some, held, rfl⟩ := Wired.push?_eq_some h
      exact .push bytes some held
  | fail =>
      simp only [step?] at h
      split_ifs at h with stuck
      obtain ⟨w₁, failed, rfl⟩ := Option.map_eq_some_iff.mp h
      obtain ⟨a, act, rfl⟩ := act?_eq_some failed
      have gone : w.outbound.readerHeld = false := by
        simp only [Wired.isStuck, Bool.and_eq_true, Bool.not_eq_true'] at stuck
        exact stuck.2
      exact .fail gone (Agent.step_of_step? act)
  | flush =>
      simp only [step?] at h
      split_ifs at h with sent
      obtain ⟨a, act, rfl⟩ := act?_eq_some h
      cases Agent.step_of_step? act with
      | wrote busy => exact .flush (List.isEmpty_iff.mp sent) busy
  | release =>
      simp only [step?] at h
      split_ifs at h with served
      cases h
      obtain ⟨served, holds⟩ := Bool.and_eq_true_iff.mp served
      exact .release served holds

end AgentEnd

/-! ## A controller -/

namespace ControllerEnd

open Controller (ReaderEnd)

/-- What a controller on its pipes can do by itself. -/
inductive Step (w : ControllerEnd) : ControllerEnd → Prop
  | pull {bs rest} (reads : w.side.readerGone = false)
      (bytes : w.inbound.bytes = bs ++ rest)
      (some : bs ≠ []) :
      Step w { w with
        buffer := w.buffer ++ bs, inbound := { w.inbound with bytes := rest } }
  | reply {r splitter buffer} (reads : w.side.readerGone = false)
      (sound : splitter.IsSound)
      (finds : w.Finds Wire.decodeReply (some (.ok r)) splitter buffer) :
      Step w { w with
        side := { w.side with calls := w.side.calls.receive r }, splitter, buffer }
  | readerDone {what why splitter buffer} (reads : w.side.readerGone = false)
      (sound : splitter.IsSound)
      (finds : w.Finds Wire.decodeReply what splitter buffer)
      (amiss : ∀ r, what ≠ some (.ok r)) :
      Step w { w with
        side := { w.side with
          calls := w.side.calls.close (ReaderEnd.disconnect why),
          readerGone := true }
        splitter, buffer }
  | stop (reads : w.side.readerGone = false) (dropped : w.side.dropped = true) :
      Step w { w with
        side := { w.side with
          calls := w.side.calls.close (ReaderEnd.disconnect .stopped),
          readerGone := true } }
  | take {r rest} (alive : w.side.writerGone = false) (free : w.side.writing = none)
      (next : w.side.queue = r :: rest) :
      Step w { w with
        side := { w.side with writing := some r, queue := rest }
        sending := frame (Wire.encodeRequest r) }
  | push {bs rest} (bytes : w.sending = bs ++ rest) (some : bs ≠ [])
      (held : w.outbound.readerHeld = true) :
      Step w { w with
        sending := rest,
        outbound := { w.outbound with bytes := w.outbound.bytes ++ bs } }
  | fail (gone : w.outbound.readerHeld = false) :
      Step w { w with
        side := { w.side with
          calls := w.side.calls.close .writeFailed, queue := [],
          writing := none, writerGone := true }
        sending := [] }
  | flush {r} (sent : w.sending = []) (busy : w.side.writing = some r) :
      Step w { w with side := { w.side with writing := none } }
  | finish (dropped : w.side.dropped = true) :
      Step w { w with
        side := { w.side with writerGone := true }
        outbound := { w.outbound with writerHeld := false } }
  | release (gone : w.side.readerGone = true) : Step w w.letGo

variable {w w' : ControllerEnd} {m : Move}

theorem act?_eq_some {e : Controller.Event} (h : act? w e = some w') :
    ∃ c, w.side.step? e = some c ∧ w' = { w with side := c } := by
  obtain ⟨c, act, same⟩ := Option.map_eq_some_iff.mp h
  exact ⟨c, act, same.symm⟩

theorem step_of_step? (sound : w.splitter.IsSound) (h : w.step? m = some w') :
    Step w w' := by
  cases m with
  | pull n =>
      simp only [step?] at h
      split_ifs at h with gone
      obtain ⟨bs, rest, bytes, some, rfl⟩ := Wired.pull?_eq_some h
      exact .pull (by simpa using gone) bytes some
  | read =>
      simp only [step?] at h
      split_ifs at h with gone
      have reads : w.side.readerGone = false := by simpa using gone
      split at h
      case h_1 r _ found =>
          obtain ⟨splitter, buffer, rfl, sound, finds⟩ :=
            Wired.found?_eq_some sound found
          obtain ⟨c, act, rfl⟩ := act?_eq_some h
          cases Controller.step_of_step? act
          exact .reply reads sound finds
      case h_2 f _ found =>
          obtain ⟨splitter, buffer, rfl, sound, finds⟩ :=
            Wired.found?_eq_some sound found
          obtain ⟨c, act, rfl⟩ := act?_eq_some h
          cases Controller.step_of_step? act
          exact .readerDone reads sound finds (by simp)
      case h_3 found =>
          obtain ⟨splitter, buffer, rfl, sound, finds⟩ :=
            Wired.found?_eq_some sound found
          obtain ⟨c, act, rfl⟩ := act?_eq_some h
          cases Controller.step_of_step? act
          exact .readerDone reads sound finds (by simp)
      case h_4 => cases h
  | stop =>
      obtain ⟨c, act, rfl⟩ := act?_eq_some h
      cases Controller.step_of_step? act with
      | readerDone reads meant => exact .stop reads (meant rfl)
  | take =>
      obtain ⟨w₁, taken, h⟩ := Option.bind_eq_some_iff.mp h
      obtain ⟨c, act, rfl⟩ := act?_eq_some taken
      cases Controller.step_of_step? act with
      | @take r rest alive free next =>
          simp only [Wire.appendFrame_eq (Wire.length_encodeRequest r),
            List.nil_append] at h
          cases h
          exact .take alive free next
  | push n =>
      obtain ⟨bs, rest, bytes, some, held, rfl⟩ := Wired.push?_eq_some h
      exact .push bytes some held
  | fail =>
      simp only [step?] at h
      split_ifs at h with stuck
      obtain ⟨w₁, failed, rfl⟩ := Option.map_eq_some_iff.mp h
      obtain ⟨c, act, rfl⟩ := act?_eq_some failed
      cases Controller.step_of_step? act
      have gone : w.outbound.readerHeld = false := by
        simp only [Wired.isStuck, Bool.and_eq_true, Bool.not_eq_true'] at stuck
        exact stuck.2
      exact .fail gone
  | flush =>
      simp only [step?] at h
      split_ifs at h with sent
      obtain ⟨c, act, rfl⟩ := act?_eq_some h
      cases Controller.step_of_step? act with
      | wrote busy => exact .flush (List.isEmpty_iff.mp sent) busy
  | finish =>
      obtain ⟨w₁, done, rfl⟩ := Option.map_eq_some_iff.mp h
      obtain ⟨c, act, rfl⟩ := act?_eq_some done
      cases Controller.step_of_step? act with
      | writerDone _ _ _ dropped => exact .finish dropped
  | release =>
      simp only [step?] at h
      split_ifs at h with gone
      cases h
      simp only [Bool.and_eq_true] at gone
      exact .release gone.1.1

/-- A writer that has nothing to send, and nothing to flush either, is idle. -/
theorem writing_eq_none (stuck : w.step? .flush = none) (sent : w.sending = []) :
    w.side.writing = none := by
  have empty : w.sending.isEmpty = true := by simp [sent]
  simp only [step?, act?, Controller.step?, if_pos empty] at stuck
  exact Option.map_eq_none_iff.mp (Option.map_eq_none_iff.mp stuck)

/-- An idle writer that cannot take a request has none to take. -/
theorem queue_eq_nil (stuck : w.step? .take = none)
    (alive : w.side.writerGone = false)
    (free : w.side.writing = none) : w.side.queue = [] := by
  cases queue : w.side.queue with
  | nil => rfl
  | cons r queued =>
      simp only [step?, act?, Controller.step?, alive, free, queue, Option.map_some,
        Option.bind_some,
        Wire.appendFrame_eq (Wire.length_encodeRequest r)] at stuck
      cases stuck

end ControllerEnd

end ElementAgent

import ElementAgent.Proofs.Agent.Work
import ElementAgent.Proofs.Wire.Receptions

/-!
# The outgoing half of a controller

What a controller has still to send, from the queue of requests to the pipe, and
what it does to that and to its calls. Main statements:

* **moves**: as long as no write fails a move takes the outgoing half one step
  further and leaves the calls alone, or reads, which leaves the outgoing half
  alone (`ControllerEnd.outbox_of_step?`, `ControllerEnd.hears_of_step?`);
* **order**: a step takes requests from the queue to the pipe in their order and
  loses none (`Outbox.IsOnTheWay.step`).
-/

namespace ElementAgent

open Wire (Reception frame frames encodeRequest decodeRequest maxBody)

/-- The outgoing half of a controller on its pipes. -/
structure Outbox where
  /-- Requests that the writer has not taken yet. -/
  queue : List Request
  writing : Option Request
  writerGone : Bool
  /-- Bytes of the request that is written. -/
  sending : List UInt8
  pipe : Pipe

namespace Outbox

/-- What a move does to the outgoing half, and whether it brings it further. -/
inductive Step (dropped : Bool) (o : Outbox) : Bool → Outbox → Prop
  | take {r rest} (alive : o.writerGone = false) (free : o.writing = none)
      (next : o.queue = r :: rest) :
      Step dropped o true
        { o with
          writing := some r, queue := rest, sending := frame (encodeRequest r) }
  | push {bs rest} (bytes : o.sending = bs ++ rest) (some : bs ≠ []) :
      Step dropped o true
        { o with
          sending := rest, pipe := { o.pipe with bytes := o.pipe.bytes ++ bs } }
  | flush {r} (sent : o.sending = []) (busy : o.writing = some r) :
      Step dropped o true { o with writing := none }
  | finish (alive : o.writerGone = false) (free : o.writing = none)
      (written : o.queue = [])
      (left : dropped = true) :
      Step dropped o true { o with
        writerGone := true, pipe := { o.pipe with writerHeld := false } }
  | still : Step dropped o false o
  | letGo (gone : o.writerGone = true) :
      Step dropped o false { o with pipe := { o.pipe with writerHeld := false } }

/-- The writer ends when the controller was dropped and everything has been
written, and then closes the pipe. -/
structure IsOrderly (dropped : Bool) (o : Outbox) : Prop where
  idle : o.writing = none → o.sending = []
  ended : o.writerGone = true → dropped = true ∧ o.queue = [] ∧ o.writing = none
  shut : o.pipe.writerHeld = false ↔ o.writerGone = true

variable {dropped further : Bool} {o o' : Outbox}

theorem IsOrderly.step (h : o.IsOrderly dropped)
    (step : o.Step dropped further o') : o'.IsOrderly dropped := by
  obtain ⟨idle, ended, shut⟩ := h
  cases step with
  | still => exact ⟨idle, ended, shut⟩
  | take alive free next =>
      exact ⟨nofun, fun gone => (by simp [alive] at gone), shut⟩
  | push bytes some =>
      refine ⟨fun free => ?_, ended, shut⟩
      rw [idle free] at bytes
      exact (List.append_eq_nil_iff.mp bytes.symm).2
  | flush sent busy =>
      exact ⟨fun _ => sent, fun gone =>
        ⟨(ended gone).1, (ended gone).2.1, rfl⟩, shut⟩
  | finish alive free written done =>
      exact ⟨idle, fun _ => ⟨done, written, free⟩, iff_of_true rfl rfl⟩
  | letGo gone => exact ⟨idle, ended, iff_of_true rfl gone⟩

/-- The pipe stays as wide, and the far end keeps hold of it. -/
theorem Step.pipe (step : o.Step dropped further o') :
    o'.pipe.capacity = o.pipe.capacity ∧
    o'.pipe.readerHeld = o.pipe.readerHeld := by
  cases step <;> exact ⟨rfl, rfl⟩

/-- The far end still has to read these requests, and then those in the queue. -/
def IsOnTheWay (far : Reception) (o : Outbox) (unread : List Request) : Prop :=
  far.Receives encodeRequest unread (o.pipe.bytes ++ o.sending)

/-- A step loses no request and lets none overtake another. -/
theorem IsOnTheWay.step {far : Reception} {unread : List Request}
    (h : o.IsOnTheWay far unread) (orderly : o.IsOrderly dropped)
    (step : o.Step dropped further o') :
    ∃ unread', unread' ++ o'.queue = unread ++ o.queue ∧
      o'.IsOnTheWay far unread' := by
  cases step with
  | still | flush | finish | letGo => exact ⟨unread, rfl, h⟩
  | @take r rest alive free next =>
      refine ⟨unread ++ [r], by simp [next], ?_⟩
      -- nothing is being sent, so its frame comes behind everything that is on
      -- the way
      have more := Reception.Receives.append h [r]
      rw [orderly.idle free, List.append_nil] at more
      simpa [IsOnTheWay, frames] using more
  | push bytes some =>
      refine ⟨unread, rfl, ?_⟩
      unfold IsOnTheWay at h
      rw [bytes, ← List.append_assoc] at h
      exact h

/-- The most steps that it takes until everything has been written and read. -/
def work (o : Outbox) : Nat :=
  (2 * maxFrame + 2) * o.queue.length + 2 * o.sending.length + o.pipe.bytes.length +
    (if o.writing.isSome then 1 else 0) + if o.writerGone then 0 else 1

theorem work_lt_of_step (step : o.Step dropped true o') : o'.work < o.work := by
  cases step with
  | @take r rest alive free next =>
      have short := length_frame (Wire.length_encodeRequest r)
      simp only [work, next, free, alive, List.length_cons, Option.isSome_some,
        Option.isSome_none, Bool.false_eq_true, if_true, if_false, Nat.mul_succ]
      omega
  | @push bs rest bytes some =>
      have longer := List.length_pos_iff.mpr some
      simp only [work, bytes, List.length_append]
      omega
  | flush sent busy =>
      simp only [work, busy, Option.isSome_some, Option.isSome_none,
        Bool.false_eq_true, if_true, if_false]
      omega
  | finish alive free written left =>
      simp only [work, alive, Bool.false_eq_true, if_true, if_false]
      omega

/-- Reading is work, too. -/
theorem work_lt_of_read {bs rest : List UInt8} (bytes : o.pipe.bytes = bs ++ rest)
    (some : bs ≠ []) :
    work { o with pipe := { o.pipe with bytes := rest } } < o.work := by
  have longer := List.length_pos_iff.mpr some
  simp only [work, bytes, List.length_append]
  omega

end Outbox

/-! ## The moves of a controller -/

namespace Wired

variable {σ α : Type} {w w' : Wired σ}
  {read : List UInt8 → Except MessagePack.Fault α}

/-- A reader that finds something leaves the outgoing bytes alone. -/
theorem found?_outgoing {what : Option (Except Wire.CodecFault α)}
    (h : w.found? read = some (what, w')) :
    w'.sending = w.sending ∧ w'.outbound = w.outbound := by
  unfold found? at h
  split at h
  case h_1 | h_2 => cases h; exact ⟨rfl, rfl⟩
  case h_3 =>
      simp only at h
      split_ifs at h
      split at h <;> cases h <;> exact ⟨rfl, rfl⟩

end Wired

/-- What reading does to a controller. -/
inductive Controller.Hears (c : Controller) : Controller → Prop
  | aside {c'} (calls : c'.calls = c.calls) (reader : c'.readerGone = c.readerGone)
      (owner : c'.dropped = c.dropped) : Hears c c'
  | reply {c'} (r : Reply) (calls : c'.calls = c.calls.receive r)
      (reader : c'.readerGone = c.readerGone)
      (owner : c'.dropped = c.dropped) : Hears c c'
  | ended {c'} (why : Disconnect) (calls : c'.calls = c.calls.close why)
      (reads : c.readerGone = false)
      (gone : c'.readerGone = true) (owner : c'.dropped = c.dropped) : Hears c c'

namespace ControllerEnd

/-- The outgoing half. -/
def outbox (w : ControllerEnd) : Outbox :=
  ⟨w.side.queue, w.side.writing, w.side.writerGone, w.sending, w.outbound⟩

/-- The writer's moves that bring requests further. -/
def Move.brings : Move → Bool
  | .take | .push _ | .flush | .finish => true
  | .pull _ | .read | .stop | .fail | .release => false

variable {w w' : ControllerEnd} {m : Move}

theorem outbox_of_step? (h : w.step? m = some w') (written : m ≠ .fail) :
    w.outbox.Step w.side.dropped m.brings w'.outbox := by
  cases m with
  | fail => exact absurd rfl written
  | pull n =>
      simp only [step?] at h
      split_ifs at h
      obtain ⟨bs, rest, -, -, rfl⟩ := Wired.pull?_eq_some h
      exact .still
  | read =>
      simp only [step?] at h
      split_ifs at h
      split at h
      case h_4 => cases h
      case h_1 found | h_2 found | h_3 found =>
        obtain ⟨c, act, rfl⟩ := act?_eq_some h
        obtain ⟨sending, outbound⟩ := Wired.found?_outgoing found
        have side := Wired.found?_side found
        rw [side] at act
        cases Controller.step_of_step? act
        simp only [outbox, sending, outbound]
        exact .still
  | stop =>
      obtain ⟨c, act, rfl⟩ := act?_eq_some h
      cases Controller.step_of_step? act
      exact .still
  | take =>
      obtain ⟨w₁, taken, h⟩ := Option.bind_eq_some_iff.mp h
      obtain ⟨c, act, rfl⟩ := act?_eq_some taken
      cases Controller.step_of_step? act with
      | @take r rest alive free next =>
          simp only [Wire.appendFrame_eq (Wire.length_encodeRequest r),
            List.nil_append] at h
          cases h
          exact .take alive free next
  | push n =>
      obtain ⟨bs, rest, bytes, some, -, rfl⟩ := Wired.push?_eq_some h
      exact .push bytes some
  | flush =>
      simp only [step?] at h
      split_ifs at h with sent
      obtain ⟨c, act, rfl⟩ := act?_eq_some h
      cases Controller.step_of_step? act with
      | wrote busy => exact .flush (List.isEmpty_iff.mp sent) busy
  | finish =>
      obtain ⟨w₁, done, rfl⟩ := Option.map_eq_some_iff.mp h
      obtain ⟨c, act, rfl⟩ := act?_eq_some done
      cases Controller.step_of_step? act with
      | writerDone alive free queue dropped =>
          exact .finish alive free queue dropped
  | release =>
      simp only [step?] at h
      split_ifs at h with gone
      cases h
      simp only [Bool.and_eq_true] at gone
      exact .letGo gone.1.2

theorem hears_of_step? (h : w.step? m = some w') (written : m ≠ .fail) :
    w.side.Hears w'.side := by
  cases m with
  | fail => exact absurd rfl written
  | pull n =>
      simp only [step?] at h
      split_ifs at h
      obtain ⟨bs, rest, -, -, rfl⟩ := Wired.pull?_eq_some h
      exact .aside rfl rfl rfl
  | read =>
      simp only [step?] at h
      split_ifs at h
      split at h
      case h_4 => cases h
      case h_1 r w₁ found =>
        obtain ⟨c, act, rfl⟩ := act?_eq_some h
        rw [Wired.found?_side found] at act
        cases Controller.step_of_step? act
        exact .reply r rfl rfl rfl
      case h_2 found | h_3 found =>
        obtain ⟨c, act, rfl⟩ := act?_eq_some h
        rw [Wired.found?_side found] at act
        cases Controller.step_of_step? act with
        | readerDone reads => exact .ended _ rfl reads rfl rfl
  | stop =>
      obtain ⟨c, act, rfl⟩ := act?_eq_some h
      cases Controller.step_of_step? act with
      | readerDone reads => exact .ended _ rfl reads rfl rfl
  | take =>
      obtain ⟨w₁, taken, h⟩ := Option.bind_eq_some_iff.mp h
      obtain ⟨c, act, rfl⟩ := act?_eq_some taken
      cases Controller.step_of_step? act with
      | @take r rest alive free next =>
          simp only [Wire.appendFrame_eq (Wire.length_encodeRequest r),
            List.nil_append] at h
          cases h
          exact .aside rfl rfl rfl
  | push n =>
      obtain ⟨bs, rest, -, -, -, rfl⟩ := Wired.push?_eq_some h
      exact .aside rfl rfl rfl
  | flush =>
      simp only [step?] at h
      split_ifs at h
      obtain ⟨c, act, rfl⟩ := act?_eq_some h
      cases Controller.step_of_step? act
      exact .aside rfl rfl rfl
  | finish =>
      obtain ⟨w₁, done, rfl⟩ := Option.map_eq_some_iff.mp h
      obtain ⟨c, act, rfl⟩ := act?_eq_some done
      cases Controller.step_of_step? act
      exact .aside rfl rfl rfl
  | release =>
      simp only [step?] at h
      split_ifs at h
      cases h
      exact .aside rfl rfl rfl

/-- A failed write does not end the reader. -/
theorem readerGone_of_fail (h : w.step? .fail = some w') :
    w'.side.readerGone = w.side.readerGone := by
  simp only [step?] at h
  split_ifs at h
  obtain ⟨w₁, failed, rfl⟩ := Option.map_eq_some_iff.mp h
  obtain ⟨c, act, rfl⟩ := act?_eq_some failed
  cases Controller.step_of_step? act
  rfl

end ControllerEnd

end ElementAgent

import ElementAgent.Proofs.Agent.Work
import ElementAgent.Proofs.Connection.Ledger

/-!
# No schedule goes on for ever

How much work is left on a connection: every request, byte, lookup and reply at
the price of all the moves that it may still take. A request in transit pays for
the lookup and the reply that come of it. Main statements: every move of a task
lowers the work (`work_withAgent`, `work_withController`), time does not change
it, and a call raises it by `requestWork`; so a run makes at most `requestWork`
moves for each call (`moves_le`).
-/

namespace ElementAgent

open Wire (decodeReply)

/-- The work for a request in the queue. -/
def requestWork : Nat := (byteWork + 2) * maxFrame + 2

namespace ControllerEnd

/-- The work for the request that the controller is writing. -/
def writingWork : Option Request → Nat
  | some _ => 1
  | none => 0

def work (w : ControllerEnd) : Nat :=
  w.side.queue.length * requestWork + writingWork w.side.writing +
    w.sending.length * (byteWork + 2) + w.outbound.bytes.length * (byteWork + 1) +
    w.inbound.bytes.length * 2 + w.undecoded.length

variable {w w' : ControllerEnd}

/-- A move of a controller that goes on lowers the work. -/
theorem work_lt (step : Step w w') (reads : w.side.readerGone = false)
    (kept : w.side.dropped = false) (held : w.outbound.readerHeld = true)
    (silent : w.side.writing = none → w.sending = [])
    (goes : ∀ {what splitter buffer}, w.Finds decodeReply what splitter buffer →
      ∃ r, what = some (.ok r)) : w'.work < w.work := by
  cases step with
  | @pull bs rest _ bytes some =>
      have one : 0 < bs.length := List.length_pos_iff.mpr some
      rw [work, work, bytes, List.length_append]
      simp only [Endpoint.undecoded]
      rw [Endpoint.length_undecoded_append]
      simp only [Endpoint.undecoded]
      omega
  | @reply r splitter buffer _ sound finds =>
      cases finds with
      | message whole back =>
          have shorter : (splitter.owed buffer).length + 4 ≤ w.undecoded.length :=
            Wire.length_of_front_body whole
          rw [work, work]
          simp only [Endpoint.undecoded] at *
          omega
  | readerDone _ sound finds amiss =>
      obtain ⟨r, same⟩ := goes finds
      exact absurd same (amiss r)
  | stop _ dropped =>
      rw [kept] at dropped
      cases dropped
  | @take r rest alive free next =>
      have short := length_frame (Wire.length_encodeRequest r)
      have paid := Nat.mul_le_mul_right (byteWork + 2) short
      have price : requestWork = maxFrame * (byteWork + 2) + 2 := by
        rw [requestWork, Nat.mul_comm]
      rw [work, work, silent free, next, free, List.length_cons,
        Nat.add_mul rest.length]
      simp only [Endpoint.undecoded, List.length_nil, writingWork]
      omega
  | @push bs rest bytes some _ =>
      have one : 0 < bs.length := List.length_pos_iff.mpr some
      rw [work, work, bytes, List.length_append]
      simp only [Endpoint.undecoded, List.length_append, Nat.add_mul, Nat.mul_add]
      omega
  | fail gone =>
      rw [held] at gone
      cases gone
  | @flush r sent busy =>
      rw [work, work, busy]
      simp only [Endpoint.undecoded, writingWork]
      omega
  | finish dropped =>
      rw [kept] at dropped
      cases dropped
  | release gone =>
      rw [reads] at gone
      cases gone

end ControllerEnd

namespace Connection

open Agent (Setup)

def work (c : Connection) : Nat :=
  c.controllerEnd.work + c.far.undecoded.length * byteWork + c.far.side.work +
    c.far.sending.length * 3

/-- The same from the other end. -/
theorem work_eq (c : Connection) :
    c.work = c.agentEnd.work + c.near.side.queue.length * requestWork +
      ControllerEnd.writingWork c.near.side.writing +
        c.near.sending.length * (byteWork + 2) +
      c.near.undecoded.length := by
  rw [work, ControllerEnd.work, AgentEnd.work]
  simp only [controllerEnd, agentEnd, Endpoint.undecoded]
  omega

theorem work_fresh (s : Setup) (up down : Nat) : (fresh s up down).work = 0 := by
  simp [work, ControllerEnd.work, controllerEnd, fresh, Endpoint.fresh,
    Endpoint.undecoded, Controller.fresh, Agent.fresh, Pipe.fresh,
    ControllerEnd.writingWork, Agent.work, Agent.Reading.work, Agent.Writing.work,
    Agent.lookupsWork, Wire.Splitter.owed, Wire.Splitter.fresh]

def Move.isTask : Move → Bool
  | .controller _ | .agent _ => true
  | .lookup _ | .health | .drop | .elapse _ => false

variable {s : Setup} {c : Connection} {made asked : List Request}
  {out got : List Reply}

/-- On a connection that is kept open nothing of the agent has ended. -/
theorem Traffic.openEnds (h : Traffic s c made asked out got) :
    c.agentEnd.openEnds = 3 := by
  have reads : c.agentEnd.side.reading ≠ .ended := h.reads
  have writes : c.agentEnd.side.writing ≠ .ended :=
    fun gone => reads (h.agent.accounts.last gone).1
  have holds : c.agentEnd.holdsPipe = true := by
    simp [Wired.holdsPipe, agentEnd, h.upHeld.2]
  simp [AgentEnd.openEnds, reads, writes, holds]

theorem work_withAgent [s.IsDecided] (h : Ledger s c made asked out got)
    (ask : Askable s made) {w : AgentEnd}
    (step : AgentEnd.Step s c.agentEnd w) : (c.withAgent w).work < c.work := by
  have lower : w.work < c.agentEnd.work := by
    obtain ⟨_, _, traffic⟩ := h.agentMove ask.fits step
    have same : w.openEnds = c.agentEnd.openEnds :=
      traffic.openEnds.trans h.openEnds.symm
    rcases h.agent.progress step h.downHeld.2 with ends | ⟨-, lower⟩
    · exact absurd same (Nat.ne_of_lt ends)
    · exact lower
  rw [work_eq, work_eq c]
  exact Nat.add_lt_add_right (Nat.add_lt_add_right (Nat.add_lt_add_right
    (Nat.add_lt_add_right lower _) _) _) _

theorem work_withController (h : Ledger s c made asked out got)
    (ask : Askable s made) {w : ControllerEnd}
    (step : ControllerEnd.Step c.controllerEnd w) :
    (c.withController w).work < c.work := by
  have lower : w.work < c.controllerEnd.work := by
    refine ControllerEnd.work_lt step h.readerStays h.kept h.upHeld.2 h.silent
      fun finds => ?_
    obtain ⟨r, -, same, -⟩ := h.found_reply ask.fits finds
    exact ⟨r, same⟩
  exact Nat.add_lt_add_right
    (Nat.add_lt_add_right (Nat.add_lt_add_right lower _) _) _

/-- A move of a task lowers the work by one at least, and a call raises it by
`requestWork`. -/
theorem work_step [s.IsDecided] (h : Ledger s c made asked out got) {m : Move}
    {c' : Connection} (ask : Askable s (made ++ m.requests made.length))
    (step : c.step? s m = some c') (kept : m ≠ .drop) :
    [m].countP Move.isTask + c'.work ≤
      c.work + (m.requests made.length).length * requestWork := by
  cases m with
  | controller m =>
      obtain ⟨w, moved, rfl⟩ := Option.map_eq_some_iff.mp step
      rw [Move.requests, List.append_nil] at ask
      have lower :=
        work_withController h ask (ControllerEnd.step_of_step? h.sound moved)
      simp only [List.countP_singleton, Move.isTask, if_true]
      omega
  | agent m =>
      obtain ⟨w, moved, rfl⟩ := Option.map_eq_some_iff.mp step
      rw [Move.requests, List.append_nil] at ask
      have lower :=
        work_withAgent h ask (AgentEnd.step_of_step? h.agent.sound moved)
      simp only [List.countP_singleton, Move.isTask, if_true]
      omega
  | elapse ms =>
      cases step
      rw [work, work]
      simp only [List.countP_singleton, Move.isTask, Move.requests, withAgent,
        agentEnd, controllerEnd, ControllerEnd.work, Endpoint.undecoded, Agent.work,
        Bool.false_eq_true, if_false]
      omega
  | lookup pid | health =>
      obtain ⟨w, called, rfl⟩ := Option.map_eq_some_iff.mp step
      obtain ⟨side, act, rfl⟩ := ControllerEnd.act?_eq_some called
      cases Controller.step_of_step? act
      rw [work, work]
      simp only [List.countP_singleton, Move.isTask, Move.requests, withController,
        controllerEnd, ControllerEnd.work, Endpoint.undecoded, h.call_eq,
        List.length_append, List.length_singleton, Nat.add_mul, Nat.one_mul,
        Bool.false_eq_true, if_false]
      omega
  | drop => exact absurd rfl kept

/-- A run makes no more than `requestWork` moves for each call,
whatever the schedule. -/
theorem moves_le [s.IsDecided] {up down : Nat} {ms : List Move}
    (run : ms.foldlM (step? s) (fresh s up down) = some c)
    (kept : .drop ∉ ms) (ask : Askable s (requests ms)) :
    ms.countP Move.isTask + c.work ≤ (requests ms).length * requestWork := by
  refine induct (P := fun ms c =>
    ms.countP Move.isTask + c.work ≤ (requests ms).length * requestWork)
    (by simp [work_fresh, requests]) ?_ run kept ask
  intro ms c m c' asked out got ledger ask last step before
  have one := work_step ledger ask step last
  rw [requests_concat, List.countP_append, List.length_append, Nat.add_mul]
  omega

end Connection

end ElementAgent

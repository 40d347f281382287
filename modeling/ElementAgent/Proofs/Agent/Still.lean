import ElementAgent.Proofs.Agent.Books

/-!
# An agent that stands still

What there is about an agent none of whose tasks can move, except for lookups that
come to their end (`IsStill`). Main statements, for a far end that has read all
bytes: everything was written (`written`), every lookup runs (`running`), and the
reader waits for a request that has not come, or for a permit while all are held,
or has ended (`reading`, `no_request`).
-/

namespace ElementAgent

open Wire (front decodeRequest)

namespace Wired

variable {σ : Type} {w : Wired σ}

/-- What is in a pipe can be read. -/
theorem bytes_eq_nil (stuck : w.pull? 1 = none) : w.inbound.bytes = [] := by
  by_contra some
  have one : 1 ≤ w.inbound.bytes.length := List.length_pos_iff.mpr some
  simp [pull?, Pipe.take?, one] at stuck

/-- What is to be written can be written into an empty pipe. -/
theorem sending_eq_nil (stuck : w.push? 1 = none)
    (held : w.outbound.readerHeld = true) (wide : 0 < w.outbound.capacity)
    (empty : w.outbound.bytes = []) :
    w.sending = [] := by
  by_contra some
  have one : ¬ w.sending.length < 1 := Nat.not_lt.mpr (List.length_pos_iff.mpr some)
  have room : (w.sending.take 1).length ≤ w.outbound.room := by
    rw [List.length_take, Pipe.room, empty]
    simp only [List.length_nil]
    omega
  simp only [push?, one, or_false, Pipe.put?, held, room, and_self,
    if_true] at stuck
  cases stuck

end Wired

namespace AgentEnd

open Agent (Setup)

/-- No task can move, unless a lookup comes to its end. -/
def IsStill (s : Setup) (w : AgentEnd) : Prop :=
  ∀ m, (∀ n, m ≠ .finish n) → w.step? s m = none

namespace IsStill

variable {s : Setup} {w : AgentEnd} {asked : List Request} {out : List Reply}

/-- An event of the agent that is a move of its own is not open. -/
theorem event (still : IsStill s w) (m : Move) {e : Agent.Event}
    (same : w.step? s m = act? s w e)
    (other : ∀ n, m ≠ .finish n) : w.side.step? s e = none :=
  Option.map_eq_none_iff.mp (same ▸ still m other)

/-- A reader that waits for a request has read all bytes. -/
theorem heard (still : IsStill s w) (ready : w.side.reading = .ready) :
    w.inbound.bytes = [] := by
  have stuck := still (.pull 1) (by simp)
  rw [step?, if_pos ready] at stuck
  exact Wired.bytes_eq_nil stuck

/-- The writer has written all replies in the queue, if the far end reads them. -/
theorem written (still : IsStill s w) (h : Books s w asked out)
    (fits : ∀ r ∈ w.side.queue, Fits r) (held : w.outbound.readerHeld = true)
    (wide : 0 < w.outbound.capacity)
    (empty : w.outbound.bytes = []) : w.sending = [] ∧ w.side.queue = [] := by
  have sent : w.sending = [] :=
    Wired.sending_eq_nil (still (.push 1) (by simp)) held wide empty
  refine ⟨sent, ?_⟩
  cases writing : w.side.writing with
  | ended => exact (h.accounts.last writing).2.2
  | busy r =>
      have stuck := still .flush (by simp)
      have nothing : w.sending.isEmpty = true := by simp [sent]
      simp only [step?, act?, Agent.step?, if_pos nothing, writing] at stuck
      cases stuck
  | idle =>
      cases queue : w.side.queue with
      | nil => rfl
      | cons r queued =>
          have short : Fits r := fits r (by simp [queue])
          have stuck := still .take (by simp)
          simp only [step?, act?, Agent.step?, writing, queue, Option.map_some,
            Option.bind_some, Wire.appendFrame_eq short] at stuck
          cases stuck

/-- Every lookup runs: it was started, and it is not answered, or its reply would
have been queued. -/
theorem running (still : IsStill s w) (h : Books s w asked out)
    (empty : w.side.queue = []) {l : Agent.Lookup} (held : l ∈ w.side.lookups) :
    ∃ since, l.stage = .running since := by
  have found := Agent.find?_of_mem h.orderly held
  obtain ⟨number, id, pid, stage⟩ := l
  cases stage with
  | running since => exact ⟨since, rfl⟩
  | waiting =>
      have stuck := still.event (.begin number) rfl (by simp)
      simp only [Agent.step?, found] at stuck
      cases stuck
  | answered r =>
      have stuck := still.event (.hand number) rfl (by simp)
      have room : w.side.queue.length < s.limit := by
        rw [empty]
        exact s.limit_pos
      simp only [Agent.step?, found, if_pos room] at stuck
      split_ifs at stuck

/-- The reader waits for a request, or for a permit that is not
free, or has ended. -/
theorem reading (still : IsStill s w) (empty : w.side.queue = []) :
    w.side.reading = .ready ∨ w.side.reading = .ended ∨
      ∃ id pid, w.side.reading = .holding id pid ∧ w.side.free = 0 := by
  cases reading : w.side.reading with
  | ready => exact .inl rfl
  | ended => exact .inr (.inl rfl)
  | holding id pid =>
      refine .inr (.inr ⟨id, pid, rfl, ?_⟩)
      by_contra some
      obtain ⟨free, more⟩ := Nat.exists_eq_succ_of_ne_zero some
      have stuck := still.event .grant rfl (by simp)
      simp only [Agent.step?, reading, more] at stuck
      cases stuck
  | reporting id =>
      have stuck := still.event .report rfl (by simp)
      have room : w.side.queue.length < s.limit := by
        rw [empty]
        exact s.limit_pos
      simp only [Agent.step?, reading, if_pos room] at stuck
      split_ifs at stuck

/-- A reader that waits has no whole request before it. -/
theorem no_request (still : IsStill s w) (h : Books s w asked out)
    (ready : w.side.reading = .ready) :
    (front w.undecoded).1 = .more := by
  have stuck := still .read (by simp)
  rw [step?, if_pos ready] at stuck
  cases found : w.found? decodeRequest with
  | none => exact Wired.found?_eq_none h.sound found
  | some out =>
      obtain ⟨what, w⟩ := out
      obtain ⟨splitter, buffer, rfl, -, -⟩ := Wired.found?_eq_some h.sound found
      rw [found] at stuck
      obtain _ | _ | r := what
      · simp [act?, Agent.step?, ready] at stuck
      · simp [act?, Agent.step?, ready] at stuck
      · cases r <;> simp [act?, Agent.step?, ready] at stuck

end IsStill

end AgentEnd

end ElementAgent

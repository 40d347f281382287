import ElementAgent.Proofs.Agent.Still
import ElementAgent.Proofs.Connection.Ledger

/-!
# A connection at rest

A connection stands still when no task can move, except for lookups that come to
their end (`Stands`). Main statements: a connection that is kept open and stands
still with no lookup left has had every reply (`Stands.answered`); when no task
can move, now or after any time, no lookup is left either (`answered_of_atRest`).
The argument follows the bytes against the stream: the controller always reads, so
the pipe down is empty; what is being written fits into an empty pipe, so the
agent is not writing and its queue is empty; no lookup is left that could keep the
permits, so its reader waits for a request and has read all bytes; the pipe up is
empty as well, and so the controller has nothing left to write.
-/

namespace ElementAgent

open Wire (front decodeReply)

/-- A lookup that runs can come to its end when its time has come. -/
theorem Agent.finish_in_time {s : Setup} {a : Agent} {l : Lookup} {since t : Nat}
    (o : Orderly s a) (held : l ∈ a.lookups) (runs : l.stage = .running since)
    (due : s.due l since ≤ a.now + t) :
    ∃ a', { a with now := a.now + t }.step? s (.finish l.number) = some a' := by
  have found : a.find? l.number = some l := find?_of_mem o held
  have later : find? { a with now := a.now + t } l.number = some l := found
  simp only [step?, later, runs, if_pos due]
  exact ⟨_, rfl⟩

/-- A lookup runs no longer than the timeout. -/
theorem Agent.Setup.due_le (s : Setup) (l : Lookup) (since : Nat) :
    s.due l since ≤ since + s.timeout := by
  unfold Setup.due Setup.duration
  split <;> omega

namespace Connection

open Agent (Setup)
open AgentEnd (Fits)

/-- No task can move, unless a lookup comes to its end. -/
structure Stands (s : Setup) (c : Connection) : Prop where
  controller : ∀ m, c.controllerEnd.step? m = none
  agent : c.agentEnd.IsStill s

/-- No task can move, now or after any time. -/
def AtRest (s : Setup) (c : Connection) : Prop :=
  ∀ ms c', c.step? s (.elapse ms) = some c' →
    (∀ m, c'.step? s (.controller m) = none) ∧ ∀ m, c'.step? s (.agent m) = none

variable {s : Setup} {c : Connection} {made asked : List Request}
  {out got : List Reply}

theorem finish_opens (o : c.far.side.Orderly s) {l : Agent.Lookup} {since t : Nat}
    (held : l ∈ c.far.side.lookups) (runs : l.stage = .running since)
    (due : s.due l since ≤ c.far.side.now + t) :
    ∃ c₁ c₂, c.step? s (.elapse t) = some c₁ ∧
      c₁.step? s (.agent (.finish l.number)) = some c₂ := by
  obtain ⟨a, ends⟩ := Agent.finish_in_time o held runs due
  refine ⟨_, c.withAgent { c.agentEnd with side := a }, rfl, ?_⟩
  refine Option.map_eq_some_iff.mpr ⟨{ c.agentEnd with side := a }, ?_, rfl⟩
  exact Option.map_eq_some_iff.mpr ⟨a, ends, rfl⟩

namespace Stands

/-- Nothing is on its way down. -/
theorem down_empty (stands : Stands s c) (h : Traffic s c made asked out got) :
    c.down.bytes = [] := by
  have stuck := stands.controller (.pull 1)
  simp only [ControllerEnd.step?] at stuck
  rw [if_neg (by simp [controllerEnd, h.readerStays])] at stuck
  exact Wired.bytes_eq_nil stuck

/-- The agent has written all replies in its queue. -/
theorem replied (stands : Stands s c) (h : Traffic s c made asked out got)
    (fits : ∀ r ∈ s.replies 0 made, Fits r) (wide : 0 < c.down.capacity) :
    c.far.sending = [] ∧ c.far.side.queue = [] :=
  stands.agent.written h.agent (h.queue_fits fits) h.downHeld.2 wide
    (stands.down_empty h)

/-- With no lookup left the agent waits for a request. -/
theorem ready (stands : Stands s c) (h : Traffic s c made asked out got)
    (empty : c.far.side.queue = [])
    (ended : c.far.side.lookups = []) : c.far.side.reading = .ready := by
  rcases stands.agent.reading empty with ready | stopped | ⟨id, pid, -, none_free⟩
  · exact ready
  · exact absurd stopped h.reads
  · -- nobody holds a permit
    have permits := h.agent.orderly.permits
    rw [none_free, show c.agentEnd.side.lookups = [] from ended] at permits
    exact absurd permits (Nat.ne_of_lt s.limit_pos)

/-- The controller has written all requests, once the agent has read what
is on its way up. -/
theorem written (stands : Stands s c) (h : Traffic s c made asked out got)
    (wide : 0 < c.up.capacity)
    (heard : c.up.bytes = []) : c.near.sending = [] ∧ c.near.side.queue = [] := by
  have sent : c.near.sending = [] :=
    Wired.sending_eq_nil (stands.controller (.push 1)) h.upHeld.2 wide heard
  have free : c.near.side.writing = none :=
    ControllerEnd.writing_eq_none (stands.controller .flush) sent
  exact ⟨sent, ControllerEnd.queue_eq_nil
    (stands.controller .take) h.writerStays free⟩

/-- The controller has read all replies. -/
theorem no_reply (stands : Stands s c) (h : Traffic s c made asked out got) :
    (front c.near.undecoded).1 = .more := by
  have stuck := stands.controller .read
  simp only [ControllerEnd.step?] at stuck
  rw [if_neg (by simp [controllerEnd, h.readerStays])] at stuck
  cases found : c.controllerEnd.found? decodeReply with
  | none => exact Wired.found?_eq_none h.sound found
  | some out =>
      obtain ⟨what, w⟩ := out
      obtain ⟨splitter, buffer, rfl, -, -⟩ := Wired.found?_eq_some h.sound found
      rw [found] at stuck
      obtain _ | _ | r := what <;>
        simp [ControllerEnd.act?, Controller.step?, controllerEnd,
          h.readerStays] at stuck

/-- With no lookup left every reply has come. -/
theorem answered (stands : Stands s c) (h : Traffic s c made asked out got)
    (fits : ∀ r ∈ s.replies 0 made, Fits r) (upWide : 0 < c.up.capacity)
    (downWide : 0 < c.down.capacity) (ended : c.far.side.lookups = []) :
    (s.replies 0 made).Perm got := by
  obtain ⟨replied, empty⟩ := stands.replied h fits downWide
  have ready := stands.ready h empty ended
  have heard : c.up.bytes = [] := stands.agent.heard ready
  obtain ⟨sent, queued⟩ := stands.written h upWide heard
  obtain ⟨unread, all, up⟩ := h.up
  obtain ⟨unheard, taken, down⟩ := h.down
  have none_up : unread = [] := by
    refine Wire.frames_eq_nil (fun r _ => Wire.length_encodeRequest r) ?_
    rw [← up, heard, sent, List.append_nil, List.append_nil]
    exact stands.agent.no_request h.agent ready
  have none_down : unheard = [] := by
    refine Wire.frames_eq_nil
      (fun r listed => fits r (h.owed (by simp [taken, listed]))) ?_
    rw [← down, stands.down_empty h, replied, List.append_nil, List.append_nil]
    exact stands.no_reply h
  have places := h.agent.accounts.replies
  rw [show c.agentEnd.side.queue = [] from empty,
    show c.agentEnd.side.lookups = [] from ended,
    show c.agentEnd.side.reading = .ready from ready] at places
  rw [none_up, queued, List.append_nil, List.append_nil] at all
  rw [none_down, List.append_nil] at taken
  rw [all, ← taken]
  simpa [Agent.Reading.holds] using places

end Stands

namespace AtRest

theorem stands (rest : AtRest s c) : Stands s c where
  controller m := Option.map_eq_none_iff.mp ((rest 0 c rfl).1 m)
  agent m _ := Option.map_eq_none_iff.mp ((rest 0 c rfl).2 m)

/-- No lookup is left, since one that runs would come to its end. -/
theorem lookups_eq_nil (rest : AtRest s c) (h : Traffic s c made asked out got)
    (empty : c.far.side.queue = []) : c.far.side.lookups = [] := by
  by_contra left
  obtain ⟨l, held⟩ := List.exists_mem_of_ne_nil _ left
  obtain ⟨since, runs⟩ := rest.stands.agent.running h.agent empty held
  obtain ⟨c₁, c₂, waits, ends⟩ :=
    finish_opens h.agent.orderly held runs (Nat.le_add_left _ _)
  have stuck := (rest _ c₁ waits).2 (.finish l.number)
  rw [ends] at stuck
  cases stuck

end AtRest

/-- At rest every reply has come. -/
theorem answered_of_atRest (h : Ledger s c made asked out got)
    (ask : Askable s made) (upWide : 0 < c.up.capacity)
    (downWide : 0 < c.down.capacity)
    (rest : AtRest s c) :
    (s.replies 0 made).Perm got := by
  obtain ⟨-, empty⟩ := rest.stands.replied h.toTraffic ask.fits downWide
  exact rest.stands.answered h.toTraffic ask.fits upWide downWide
    (rest.lookups_eq_nil h.toTraffic empty)

end Connection

end ElementAgent

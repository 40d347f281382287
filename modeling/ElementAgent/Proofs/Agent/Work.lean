import ElementAgent.Proofs.Agent.Books

/-!
# The work left for an agent

How much is left to do for an agent on its pipes: every byte, lookup and reply at
the price of all the moves that it may still take. A byte is dearer the further it
has to go. Main statement: every move of an agent ends its reader, its writer or
its hold on the pipes, or lowers the work that is left (`Books.progress`).
-/

namespace ElementAgent

open Wire (maxBody frame frames)

/-- The longest frame. -/
def maxFrame : Nat := maxBody + 4

theorem length_frame {body : List UInt8} (fits : body.length ≤ maxBody) :
    (frame body).length ≤ maxFrame := by
  rw [frame, List.length_append, length_bigEndian, maxFrame]
  omega

/-- The work for a reply in the queue: it is taken, each of its bytes is written,
read and looked at, and the writer is free again. -/
def replyWork : Nat := 3 * maxFrame + 2

/-- The work for a byte that the agent has read. Four of them make no more
than a request. -/
def byteWork : Nat := replyWork + 4

namespace Agent

/-- The work for a lookup at a stage. -/
def Stage.work : Stage → Nat
  | .waiting => replyWork + 3
  | .running _ => replyWork + 2
  | .answered _ => replyWork + 1

/-- The work for what the reader holds. -/
def Reading.work : Reading → Nat
  | .holding .. => replyWork + 4
  | .reporting _ => replyWork + 1
  | .ready | .ended => 0

/-- The work for what is being written. -/
def Writing.work : Writing → Nat
  | .busy _ => 1
  | .idle | .ended => 0

def lookupsWork : List Lookup → Nat
  | [] => 0
  | l :: ls => l.stage.work + lookupsWork ls

/-- The work left for an agent, but for its bytes. -/
def work (a : Agent) : Nat :=
  a.reading.work + lookupsWork a.lookups + a.queue.length * replyWork +
    a.writing.work

theorem lookupsWork_perm {ls ms : List Lookup} (same : ls.Perm ms) :
    lookupsWork ls = lookupsWork ms := by
  induction same with
  | nil => rfl
  | cons l _ ih => rw [lookupsWork, lookupsWork, ih]
  | swap l m ls => exact Nat.add_left_comm ..
  | trans _ _ ih ih' => exact ih.trans ih'

theorem lookupsWork_concat (ls : List Lookup) (l : Lookup) :
    lookupsWork (ls ++ [l]) = l.stage.work + lookupsWork ls :=
  lookupsWork_perm (List.perm_append_singleton l ls)

variable {s : Setup} {a a' : Agent} {e : Event}

/-- A lookup that is taken off the list takes its work with it. -/
theorem work_release (o : Orderly s a) {l : Lookup} (held : l ∈ a.lookups) :
    lookupsWork a.lookups =
      l.stage.work + lookupsWork (a.release l.number).lookups := by
  rw [lookupsWork_perm (perm_release o.numbers held)]
  rfl

/-- A lookup that is moved to a cheaper stage lowers the work. -/
theorem work_setStage (o : Orderly s a) {l : Lookup} (held : l ∈ a.lookups)
    (stage : Stage) (cheaper : stage.work < l.stage.work) :
    lookupsWork (a.setStage l.number stage).lookups < lookupsWork a.lookups := by
  rw [lookupsWork_perm (perm_setStage o.numbers held stage), work_release o held]
  show stage.work + lookupsWork (a.release l.number).lookups < _
  omega

/-- A move that neither reads nor writes and leaves the writer lowers the work. -/
theorem work_lt_of_inner (o : Orderly s a) (inner : AgentEnd.IsInner e)
    (act : Step s a e a') (alive : a'.writing ≠ .ended) : a'.work < a.work := by
  cases inner with
  | grant =>
      cases act with
      | grant holds permit =>
          simp only [work, holds, Reading.work, lookupsWork_concat, Stage.work]
          omega
  | report =>
      cases act with
      | report holds _ room =>
          simp only [work, holds, Reading.work, List.length_append,
            List.length_singleton, Nat.add_mul]
          omega
      | reportLate holds gone => exact absurd gone alive
  | begin =>
      cases act with
      | @begin l peak held waits =>
          have lower := work_setStage o held (.running a.now)
            (by simp only [waits, Stage.work]; omega)
          simp only [work, setStage_reading, setStage_queue, setStage_writing]
          omega
  | finish =>
      cases act with
      | @finish l since held runs due =>
          have lower := work_setStage o held
            (.answered ((s.plan l.number l.pid).answer (a.now - since) l.id l.pid))
            (by simp only [runs, Stage.work]; omega)
          simp only [work, setStage_reading, setStage_queue, setStage_writing]
          omega
  | hand =>
      cases act with
      | @hand l r held done _ room =>
          have before := work_release o held
          simp only [done, Stage.work] at before
          simp only [work, release_reading, release_writing, List.length_append,
            List.length_singleton, Nat.add_mul]
          omega
      | handLate held done gone => exact absurd gone alive
  | writerDone =>
      cases act with
      | writerDone => exact absurd rfl alive

end Agent

namespace Endpoint

variable {σ : Type} {e : Endpoint σ}

theorem length_undecoded_append (bs : List UInt8) :
    (e.splitter.owed (e.buffer ++ bs)).length = e.undecoded.length + bs.length := by
  rw [Wire.Splitter.owed_append, List.length_append]
  rfl

end Endpoint

namespace AgentEnd

open Agent (Setup)

def work (w : AgentEnd) : Nat :=
  w.inbound.bytes.length * (byteWork + 1) + w.undecoded.length * byteWork +
    w.side.work +
    w.sending.length * 3 + w.outbound.bytes.length * 2

/-- How much has not ended: the reader, the writer, the hold on the pipes. -/
def openEnds (w : AgentEnd) : Nat :=
  (if w.side.reading = .ended then 0 else 1) +
    (if w.side.writing = .ended then 0 else 1) +
    if w.holdsPipe then 1 else 0

variable {s : Setup} {w w' : AgentEnd} {asked : List Request} {out : List Reply}

/-- One agent has less before it than another: more of it has ended, or
less work is left. -/
def IsNearer (w' w : AgentEnd) : Prop :=
  w'.openEnds < w.openEnds ∨ w'.openEnds = w.openEnds ∧ w'.work < w.work

theorem isNearer_wf : WellFounded IsNearer := by
  refine Subrelation.wf ?_ (InvImage.wf (fun w : AgentEnd => (w.openEnds, w.work))
    (Prod.lex Nat.lt_wfRel Nat.lt_wfRel).wf)
  intro w' w nearer
  exact Prod.lex_def.mpr nearer

/-- The writer goes last: an agent that still moves by itself has not lost it. -/
theorem IsInner.alive {a a' : Agent} {e : Agent.Event} (inner : IsInner e)
    (act : Agent.Step s a e a')
    (last : a.writing = .ended →
      a.reading = .ended ∧ a.lookups = [] ∧ a.queue = []) :
    a.writing ≠ .ended := by
  intro gone
  obtain ⟨read, answered, -⟩ := last gone
  cases inner <;> cases act
  case begin.begin held _ | finish.finish held _ _ | hand.hand held _ _ _ |
      hand.handLate held _ _ =>
      rw [answered] at held
      cases held
  case grant.grant holds _ | report.report holds _ _ | report.reportLate holds _ =>
      rw [read] at holds
      cases holds
  case writerDone.writerDone free =>
      rw [gone] at free
      cases free

/-- Every move ends something or lowers the work. -/
theorem Books.progress (h : Books s w asked out) (step : Step s w w')
    (held : w.outbound.readerHeld = true) : IsNearer w' w := by
  cases step with
  | @pull bs rest _ bytes some =>
      -- a byte that has been read is cheaper than one in the pipe
      have one : 0 < bs.length := List.length_pos_iff.mpr some
      have paid := Nat.mul_le_mul_right byteWork one
      refine .inr ⟨rfl, ?_⟩
      rw [work, work, bytes, List.length_append]
      simp only [Endpoint.undecoded]
      rw [Endpoint.length_undecoded_append]
      simp only [Endpoint.undecoded, Nat.add_mul, Nat.mul_add]
      omega
  | @request r splitter buffer a sound finds act =>
      cases finds with
      | message whole back =>
          -- the four bytes of its header pay for what the request will need
          have shorter : (splitter.owed buffer).length + 4 ≤ w.undecoded.length :=
            Wire.length_of_front_body whole
          have paid := Nat.mul_le_mul_right byteWork shorter
          have dear : 0 < byteWork := by
            rw [byteWork]
            omega
          cases act with
          | lookup ready | health ready =>
              refine .inr ⟨by simp [openEnds, ready, Wired.holdsPipe], ?_⟩
              rw [work, work]
              simp only [Endpoint.undecoded, Agent.work, ready, Agent.Reading.work,
                Nat.add_mul, byteWork] at *
              omega
  | undecodable _ _ act =>
      cases act with
      | undecodable ready => exact .inl (by simp [openEnds, ready, Wired.holdsPipe])
  | endOfStream _ _ act =>
      cases act with
      | endOfStream ready => exact .inl (by simp [openEnds, ready, Wired.holdsPipe])
  | @inner e a inner act =>
      have alive := inner.alive act h.accounts.last
      have read := inner.reading act fun gone => absurd gone alive
      by_cases ends : a.writing = .ended
      · exact .inl (by simp [openEnds, read, ends, alive, Wired.holdsPipe])
      · have lower := Agent.work_lt_of_inner h.orderly inner act ends
        refine .inr ⟨by simp [openEnds, read, ends, alive, Wired.holdsPipe], ?_⟩
        rw [work, work]
        simp only [Endpoint.undecoded]
        omega
  | @take r rest free next short =>
      have silent : w.sending = [] := by
        apply h.silent
        intro q busy
        rw [free] at busy
        cases busy
      have short := length_frame short
      have price : replyWork = 3 * maxFrame + 2 := rfl
      refine .inr ⟨by simp [openEnds, free, Wired.holdsPipe], ?_⟩
      rw [work, work, silent]
      simp only [Endpoint.undecoded, Agent.work, Agent.Writing.work, free, next,
        List.length_cons, List.length_nil, Nat.add_mul]
      omega
  | oversize free next long =>
      exact .inl (by simp [openEnds, free, Wired.holdsPipe])
  | @push bs rest bytes some _ =>
      have one : 0 < bs.length := List.length_pos_iff.mpr some
      refine .inr ⟨rfl, ?_⟩
      rw [work, work, bytes, List.length_append]
      simp only [Endpoint.undecoded, List.length_append]
      omega
  | fail gone =>
      rw [held] at gone
      cases gone
  | @flush r sent busy =>
      refine .inr ⟨by simp [openEnds, busy, Wired.holdsPipe], ?_⟩
      rw [work, work]
      simp only [Endpoint.undecoded, Agent.work, Agent.Writing.work, busy]
      omega
  | release _ holds =>
      have gone : w.letGo.holdsPipe = false := rfl
      rw [IsNearer, openEnds, openEnds, gone, if_pos holds,
        if_neg Bool.false_ne_true]
      exact .inl (Nat.lt_succ_self _)

end AgentEnd

end ElementAgent

import ElementAgent.Proofs.Agent.Late
import ElementAgent.Proofs.Agent.Reports

/-!
# The books of an agent on its pipes

What an agent has read and written, against its accounts. Main statement: a move
of an agent whose replies are read by somebody keeps its books (`Books.turn`): it
reads what stands at the front of its stream (`Intake`), and it writes the frames
of the replies that it takes (`Turn`). The one move that does not is taking a
reply that fits into no frame (`Breaks`), which cannot happen where all of them do
(`Books.step`).
-/

namespace ElementAgent.AgentEnd

open Agent (Setup Accounts Orderly InOrder)
open Wire (frames maxBody encodeReply)

/-- The books of an agent that has read some requests and taken some replies. -/
structure Books (s : Setup) (w : AgentEnd) (asked : List Request)
    (out : List Reply) : Prop where
  orderly : Orderly s w.side
  accounts : Accounts s w.side asked out
  order : InOrder w.side asked out
  sound : w.splitter.IsSound
  /-- Bytes are written for a reply that is being written. -/
  silent : (∀ r, w.side.writing ≠ .busy r) → w.sending = []

/-- The reply fits into a frame. -/
def Fits (r : Reply) : Prop := (encodeReply r).length ≤ maxBody

instance : DecidablePred Fits :=
  fun r => inferInstanceAs (Decidable ((encodeReply r).length ≤ maxBody))

/-- What a move does to what comes in: nothing is lost, or the next request is
read, or reading ends. -/
inductive Intake (w w' : AgentEnd) : List Request → Prop
  | kept (bytes : w'.undecoded ++ w'.inbound.bytes = w.undecoded ++ w.inbound.bytes)
      (same : w'.side.reading = .ended ↔ w.side.reading = .ended) : Intake w w' []
  | next {r} (ready : w.side.reading = .ready) (goes : w'.side.reading ≠ .ended)
      (finds : w.Finds Wire.decodeRequest (some (.ok r)) w'.splitter w'.buffer)
      (bytes : w'.inbound.bytes = w.inbound.bytes) : Intake w w' [r]
  | stop {what} (ready : w.side.reading = .ready) (ended : w'.side.reading = .ended)
      (finds : w.Finds Wire.decodeRequest what w'.splitter w'.buffer)
      (amiss : ∀ r, what ≠ some (.ok r)) : Intake w w' []

variable {s : Setup} {w w' : AgentEnd} {asked : List Request} {out : List Reply}

/-- A move that neither reads nor writes leaves what is being written. -/
theorem IsInner.busy {a a' : Agent} {e : Agent.Event} (inner : IsInner e)
    (act : Agent.Step s a e a') {r : Reply}
    (busy : a.writing = .busy r) : a'.writing = .busy r := by
  cases inner <;> cases act
  case writerDone free =>
      rw [busy] at free
      cases free
  all_goals exact busy

/-- It ends the reader only if the writer is gone. -/
theorem IsInner.reading {a a' : Agent} {e : Agent.Event} (inner : IsInner e)
    (act : Agent.Step s a e a') (alive : a.writing = .ended → a.reading = .ended) :
    a'.reading = .ended ↔ a.reading = .ended := by
  cases inner <;> cases act
  case grant holds _ => simp [holds]
  case report.report holds _ _ => simp [holds]
  case report.reportLate holds gone =>
      have ended := alive gone
      rw [holds] at ended
      cases ended
  all_goals exact Iff.rfl

/-- An agent that has not finished lets go of nothing. -/
theorem Step.holds (step : Step s w w') (working : w.side.isServed = false) :
    w'.inbound.readerHeld = w.inbound.readerHeld ∧
      w'.outbound.writerHeld = w.outbound.writerHeld := by
  cases step with
  | release served =>
      rw [working] at served
      cases served
  | _ => exact ⟨rfl, rfl⟩

namespace Books

theorem start (s : Setup) (inbound outbound : Pipe) :
    Books s { Endpoint.fresh (Agent.fresh s) with inbound, outbound } [] [] :=
  ⟨.start s, .start s, .start s, Wire.Splitter.isSound_fresh, fun _ => rfl⟩

theorem elapse (h : Books s w asked out) (ms : Nat) :
    Books s { w with side := { w.side with now := w.side.now + ms } } asked out :=
  ⟨h.orderly.step .elapse, { h.accounts with }, h.order, h.sound, h.silent⟩

/-- What the writer may take is owed for a request that was read. -/
theorem queued (h : Books s w asked out) {r : Reply} (queued : r ∈ w.side.queue) :
    r ∈ s.replies 0 asked := by
  refine h.accounts.replies.mem_iff.mpr ?_
  simp [queued]

/-- The books do not look at the pipes. -/
theorem rewire (h : Books s w asked out) (inbound outbound : Pipe) :
    Books s { w with inbound, outbound } asked out := { h with }

/-- What an act of the agent, other than a failed write, does to the books. -/
theorem act [s.IsDecided] (h : Books s w asked out) {e : Agent.Event} {a : Agent}
    (act : Agent.Step s w.side e a) (writes : e ≠ .writeFailed) : Orderly s a ∧
      Accounts s a (asked ++ e.requests) (out ++ w.side.taken e) ∧
      InOrder a (asked ++ e.requests) (out ++ w.side.taken e) :=
  ⟨h.orderly.step act, h.accounts.step h.orderly act writes,
    h.order.step act writes fun gone => (h.accounts.last gone).1⟩

end Books

/-- A move keeps the books: it reads some requests and takes some replies, and
holds on to the pipes. -/
structure Turn (s : Setup) (w w' : AgentEnd) (asked read : List Request)
    (out taken : List Reply) :
    Prop where
  books : Books s w' (asked ++ read) (out ++ taken)
  intake : Intake w w' read
  bytes : w'.outbound.bytes ++ w'.sending =
    w.outbound.bytes ++ w.sending ++ frames encodeReply taken
  listens : w'.outbound.readerHeld = true
  writer : w'.inbound.writerHeld = w.inbound.writerHeld

/-- The writer takes a reply that fits into no frame: it ends, and what is in the
queue is lost. -/
inductive Breaks (w : AgentEnd) : AgentEnd → Prop
  | oversize {r rest} (free : w.side.writing = .idle)
      (next : w.side.queue = r :: rest)
      (long : ¬ Fits r) :
      Breaks w { w with side := { w.side with writing := .ended, queue := [] } }

theorem Turn.idle (books : Books s w' asked out) (intake : Intake w w' [])
    (bytes : w'.outbound.bytes ++ w'.sending = w.outbound.bytes ++ w.sending)
    (listens : w'.outbound.readerHeld = true)
    (writer : w'.inbound.writerHeld = w.inbound.writerHeld) :
    ∃ read taken, Turn s w w' asked read out taken ∧ ∀ r ∈ taken, Fits r := by
  refine ⟨[], [], ⟨?_, intake, ?_, listens, writer⟩, by simp⟩
  · rwa [List.append_nil, List.append_nil]
  · simp [bytes, frames]

/-- Every move of an agent whose replies are read by somebody keeps the books,
unless it breaks the writer. -/
theorem Books.turn [s.IsDecided] (h : Books s w asked out) (step : Step s w w')
    (held : w.outbound.readerHeld = true) (whole : ¬ Breaks w w') :
    ∃ read taken, Turn s w w' asked read out taken ∧ ∀ r ∈ taken, Fits r := by
  cases step with
  | pull reads bytes some =>
      refine Turn.idle { h with } (.kept ?_ Iff.rfl) rfl held rfl
      simp only [Endpoint.undecoded, Wire.Splitter.owed_append, bytes,
        List.append_assoc]
  | @request r splitter buffer a sound finds act =>
      obtain ⟨orderly, accounts, order⟩ := h.act act (by simp)
      have silent : (∀ q, a.writing ≠ .busy q) → w.sending = [] := by
        intro idle
        cases act <;> exact h.silent idle
      refine ⟨[r], [], ⟨⟨orderly, accounts, order, sound, silent⟩, ?_,
        by simp [frames], held, rfl⟩,
        by simp⟩
      cases act with
      | lookup ready => exact .next ready (by simp) finds rfl
      | health ready => exact .next ready (by simp) finds rfl
  | undecodable sound finds act =>
      obtain ⟨orderly, accounts, order⟩ := h.act act (by simp)
      simp only [Agent.taken, Agent.Event.requests,
        List.append_nil] at accounts order
      cases act with
      | undecodable ready =>
          exact Turn.idle ⟨orderly, accounts, order, sound, h.silent⟩
            (.stop ready rfl finds (by simp)) rfl held rfl
  | endOfStream sound finds act =>
      obtain ⟨orderly, accounts, order⟩ := h.act act (by simp)
      simp only [Agent.taken, Agent.Event.requests,
        List.append_nil] at accounts order
      cases act with
      | endOfStream ready =>
          exact Turn.idle ⟨orderly, accounts, order, sound, h.silent⟩
            (.stop ready rfl finds (by simp)) rfl held rfl
  | @inner e a inner act =>
      obtain ⟨orderly, accounts, order⟩ := h.act act (by cases inner <;> simp)
      have plain : e.requests = [] ∧ w.side.taken e = [] := by
        cases inner <;> exact ⟨rfl, rfl⟩
      simp only [plain, List.append_nil] at accounts order
      have silent : (∀ q, a.writing ≠ .busy q) → w.sending = [] := fun idle =>
        h.silent fun r busy => idle r (inner.busy act busy)
      refine Turn.idle ⟨orderly, accounts, order, h.sound, silent⟩
        (.kept rfl ?_) rfl held rfl
      exact inner.reading act fun gone => (h.accounts.last gone).1
  | @take r rest free next fits =>
      obtain ⟨orderly, accounts, order⟩ := h.act (.take free next) (by simp)
      simp only [Agent.taken, next, List.take_succ_cons,
        List.take_zero] at accounts order
      have silent : w.sending = [] := h.silent fun q busy => by simp [free] at busy
      refine ⟨[], [r],
        ⟨⟨orderly, accounts, order, h.sound, fun idle => absurd rfl (idle r)⟩,
        .kept rfl Iff.rfl, ?_, held, rfl⟩, List.forall_mem_singleton.mpr fits⟩
      simp [silent, frames]
  | oversize free next long =>
      exact absurd (.oversize free next (Nat.not_le.mpr long)) whole
  | @push bs rest bytes some _ =>
      have silent : (∀ q, w.side.writing ≠ .busy q) → rest = [] := by
        intro idle
        rw [h.silent idle] at bytes
        exact (List.append_eq_nil_iff.mp bytes.symm).2
      refine Turn.idle { h with silent } (.kept rfl Iff.rfl) ?_ held rfl
      simp [bytes]
  | fail gone act =>
      rw [held] at gone
      cases gone
  | flush sent busy =>
      obtain ⟨orderly, accounts, order⟩ := h.act (.wrote busy) (by simp)
      simp only [Agent.taken, Agent.Event.requests,
        List.append_nil] at accounts order
      exact Turn.idle ⟨orderly, accounts, order, h.sound, fun _ => sent⟩
        (.kept rfl Iff.rfl) rfl
        held rfl
  | release served => exact Turn.idle { h with } (.kept rfl Iff.rfl) rfl held rfl

/-- Where all replies fit into frames, every move keeps the books. -/
theorem Books.step [s.IsDecided] (h : Books s w asked out) (step : Step s w w')
    (held : w.outbound.readerHeld = true) (fits : ∀ r ∈ w.side.queue, Fits r) :
    ∃ read taken, Turn s w w' asked read out taken := by
  obtain ⟨read, taken, turn, -⟩ := h.turn step held fun breaks => by
    cases breaks with
    | oversize _ next long => exact long (fits _ (by simp [next]))
  exact ⟨read, taken, turn⟩

end ElementAgent.AgentEnd

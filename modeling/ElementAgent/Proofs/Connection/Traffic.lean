import ElementAgent.Link.Connection
import ElementAgent.Proofs.Agent.Books
import ElementAgent.Proofs.Call.History

/-!
# What is under way on a connection

A controller and an agent joined by two pipes, while nobody drops the controller.
Main statements:

* **traffic**: what was called is in the controller's queue, or on its way up, or
  was read by the agent; what the agent took is on its way down, or has come; no
  task has ended (`Traffic`);
* **steps**: every move but dropping the controller keeps the traffic going
  (`Traffic.step`), and changes the table of calls by a call or by the reply that
  came (`Tabled`);
* **runs**: so every run does, as long as replies fit into frames
  (`traffic_of_run`), however many calls are made.
-/

namespace ElementAgent.Connection

open Agent (Setup)
open AgentEnd (Books Fits Intake)
open Wire (frames encodeRequest encodeReply decodeRequest decodeReply)

/-! ## Requests -/

/-- The request of a move of the owner, before whom `n` calls were made. -/
def Move.requests (n : Nat) : Move → List Request
  | .lookup pid => [.lookup (UInt64.ofNat n) pid]
  | .health => [.health (UInt64.ofNat n)]
  | .controller _ | .agent _ | .drop | .elapse _ => []

/-- The requests of a run, in the order of the calls. -/
def requests (ms : List Move) : List Request :=
  ms.foldl (fun rs m => rs ++ m.requests rs.length) []

theorem requests_concat (ms : List Move) (m : Move) :
    requests (ms ++ [m]) = requests ms ++ m.requests (requests ms).length := by
  rw [requests, List.foldl_append]
  rfl

/-- Replies to some requests are owed whatever is asked later. -/
theorem fits_of_append {s : Setup} {made more : List Request}
    (fits : ∀ r ∈ s.replies 0 (made ++ more), Fits r) :
    ∀ r ∈ s.replies 0 made, Fits r := by
  intro r owed
  refine fits r ?_
  rw [s.replies_append]
  exact List.mem_append_left _ owed

/-! ## Traffic -/

/-- Where everything is on a connection that is kept open: the agent has read some
requests and taken some replies, of which some have come. -/
structure Traffic (s : Setup) (c : Connection) (made asked : List Request)
    (out got : List Reply) :
    Prop where
  agent : Books s c.agentEnd asked out
  open_ : c.near.side.calls.closed = false
  issued : c.near.side.calls.issued = made.length
  sound : c.near.splitter.IsSound
  silent : c.near.side.writing = none → c.near.sending = []
  up : ∃ unread, made = asked ++ unread ++ c.near.side.queue ∧
    c.far.undecoded ++ c.up.bytes ++ c.near.sending = frames encodeRequest unread
  down : ∃ unheard, out = got ++ unheard ∧
    c.near.undecoded ++ c.down.bytes ++ c.far.sending = frames encodeReply unheard
  reads : c.far.side.reading ≠ .ended
  readerStays : c.near.side.readerGone = false
  writerStays : c.near.side.writerGone = false
  kept : c.near.side.dropped = false
  upHeld : c.up.writerHeld = true ∧ c.up.readerHeld = true
  downHeld : c.down.writerHeld = true ∧ c.down.readerHeld = true

/-- What becomes of the table of calls: it is left alone, or a call is made, or a
reply comes. -/
inductive Tabled (t : CallTable) : CallTable → List Request → List Reply → Prop
  | kept : Tabled t t [] []
  | call (r : Request) (named : r.id = t.nextId) :
      Tabled t (t.issue r.exchange) [r] []
  | reply (r : Reply) : Tabled t (t.receive r) [] [r]

namespace Traffic

variable {s : Setup} {c : Connection} {made asked : List Request}
  {out got : List Reply}

theorem start (s : Setup) (up down : Nat) :
    Traffic s (fresh s up down) [] [] [] [] :=
  ⟨.start s _ _, rfl, rfl, Wire.Splitter.isSound_fresh,
    fun _ => rfl, ⟨[], rfl, rfl⟩, ⟨[], rfl, rfl⟩,
    by simp [fresh, Endpoint.fresh, Agent.fresh], rfl, rfl, rfl, ⟨rfl,
      rfl⟩, ⟨rfl, rfl⟩⟩

/-- Where no call is made and no reply comes the table is left alone. -/
theorem quiet (h : Traffic s c made asked out got) {t : CallTable} :
    ∃ came, Traffic s c made asked out (got ++ came) ∧ Tabled t t [] came :=
  ⟨[], by rwa [List.append_nil], .kept⟩

/-- What the agent has taken is owed for requests of the owner. -/
theorem out_subperm (h : Traffic s c made asked out got) :
    out.Subperm (s.replies 0 made) := by
  obtain ⟨unread, rfl, -⟩ := h.up
  rw [List.append_assoc, s.replies_append]
  refine List.Subperm.trans ?_ (List.sublist_append_left _ _).subperm
  refine List.Subperm.trans
    (List.Sublist.subperm ?_) h.agent.accounts.replies.symm.subperm
  simp

/-- So is what has come. -/
theorem got_subperm (h : Traffic s c made asked out got) :
    got.Subperm (s.replies 0 made) := by
  refine List.Subperm.trans ?_ h.out_subperm
  obtain ⟨unheard, rfl, -⟩ := h.down
  exact (List.sublist_append_left _ _).subperm

theorem owed (h : Traffic s c made asked out got) {r : Reply} (taken : r ∈ out) :
    r ∈ s.replies 0 made := h.out_subperm.subset taken

/-- What the agent may take fits into a frame. -/
theorem queue_fits (h : Traffic s c made asked out got)
    (fits : ∀ r ∈ s.replies 0 made, Fits r) :
    ∀ r ∈ c.far.side.queue, Fits r := by
  intro r queued
  refine fits r ?_
  obtain ⟨unread, rfl, -⟩ := h.up
  rw [List.append_assoc, s.replies_append]
  exact List.mem_append_left _ (h.agent.queued queued)

/-- The agent finds the next request on its way up, and nothing else. -/
theorem found_request (h : Traffic s c made asked out got) {what splitter buffer}
    (finds : c.agentEnd.Finds decodeRequest what splitter buffer) :
    ∃ r unread, what = some (.ok r) ∧
      made = asked ++ [r] ++ unread ++ c.near.side.queue ∧
      splitter.owed buffer ++ c.up.bytes ++ c.near.sending =
        frames encodeRequest unread := by
  obtain ⟨unread, all, bytes⟩ := h.up
  rw [List.append_assoc] at bytes
  obtain ⟨r, unread, rfl, rfl, left⟩ := finds.next
    (fun r _ => ⟨Wire.length_encodeRequest r, Wire.decodeRequest_encodeRequest r⟩)
      bytes h.upHeld.1
  refine ⟨r, unread, rfl, by simp [all], ?_⟩
  rw [List.append_assoc, left]

/-- The controller finds the next reply on its way down, and nothing else. -/
theorem found_reply (h : Traffic s c made asked out got)
    (fits : ∀ r ∈ s.replies 0 made, Fits r)
    {what splitter buffer}
    (finds : c.controllerEnd.Finds decodeReply what splitter buffer) :
    ∃ r unheard, what = some (.ok r) ∧ out = got ++ [r] ++ unheard ∧
      splitter.owed buffer ++ c.down.bytes ++ c.far.sending =
        frames encodeReply unheard := by
  obtain ⟨unheard, all, bytes⟩ := h.down
  rw [List.append_assoc] at bytes
  have readable : ∀ r ∈ unheard, Fits r ∧ decodeReply (encodeReply r) = .ok r := by
    intro r listed
    have short := fits r (h.owed (by simp [all, listed]))
    exact ⟨short, Wire.decodeReply_encodeReply short⟩
  obtain ⟨r, unheard, rfl, rfl, left⟩ := finds.next readable bytes h.downHeld.1
  refine ⟨r, unheard, rfl, by simp [all], ?_⟩
  rw [List.append_assoc, left]

theorem agentMove [s.IsDecided] (h : Traffic s c made asked out got)
    (fits : ∀ r ∈ s.replies 0 made, Fits r) {w : AgentEnd}
    (step : AgentEnd.Step s c.agentEnd w) :
    ∃ asked out, Traffic s (c.withAgent w) made asked out got := by
  obtain ⟨read, taken, turn⟩ := h.agent.step step h.downHeld.2 (h.queue_fits fits)
  have working : c.agentEnd.side.isServed = false := by
    simp [Agent.isServed, agentEnd, h.reads]
  obtain ⟨reader, writes⟩ := step.holds working
  have down : ∃ unheard, out ++ taken = got ++ unheard ∧
      c.near.undecoded ++ w.outbound.bytes ++ w.sending =
        frames encodeReply unheard := by
    obtain ⟨unheard, rfl, before⟩ := h.down
    refine ⟨unheard ++ taken, by rw [List.append_assoc], ?_⟩
    rw [Wire.frames_append, ← before, List.append_assoc, turn.bytes]
    simp only [agentEnd, List.append_assoc]
  have rest : w.side.reading ≠ .ended ∧ ∃ unread,
      made = asked ++ read ++ unread ++ c.near.side.queue ∧
        w.undecoded ++ w.inbound.bytes ++ c.near.sending =
          frames encodeRequest unread := by
    cases turn.intake with
    | kept bytes same =>
        obtain ⟨unread, all, before⟩ := h.up
        refine ⟨fun ended => h.reads (same.mp ended), unread, ?_, ?_⟩
        · rw [List.append_nil, all]
        · rw [bytes]
          exact before
    | next ready goes finds bytes =>
        obtain ⟨r, unread, same, all, left⟩ := h.found_request finds
        cases same
        refine ⟨goes, unread, all, ?_⟩
        rw [bytes]
        exact left
    | stop ready ended finds amiss =>
        obtain ⟨r, -, same, -⟩ := h.found_request finds
        exact absurd same (amiss r)
  exact ⟨asked ++ read, out ++ taken, { h with
    agent := turn.books
    up := rest.2
    down
    reads := rest.1
    upHeld := ⟨turn.writer.trans h.upHeld.1, reader.trans h.upHeld.2⟩
    downHeld := ⟨writes.trans h.downHeld.1, turn.listens⟩ }⟩

theorem controllerMove (h : Traffic s c made asked out got)
    (fits : ∀ r ∈ s.replies 0 made, Fits r) {w : ControllerEnd}
    (step : ControllerEnd.Step c.controllerEnd w) :
    ∃ came, Traffic s (c.withController w) made asked out (got ++ came) ∧
      Tabled c.near.side.calls w.side.calls [] came := by
  obtain ⟨unread, all, sent⟩ := h.up
  obtain ⟨unheard, taken, came⟩ := h.down
  have agent := h.agent.rewire w.outbound w.inbound
  cases step with
  | @pull bs rest reads bytes some =>
      have came : c.near.splitter.owed (c.near.buffer ++ bs) ++ rest ++
          c.far.sending =
          frames encodeReply unheard := by
        rw [← came, show c.down.bytes = bs ++ rest from bytes,
          Wire.Splitter.owed_append]
        simp only [Endpoint.undecoded, List.append_assoc]
      refine quiet ?_
      exact { h with agent, down := ⟨unheard, taken, came⟩ }
  | @reply r splitter buffer reads sound finds =>
      obtain ⟨r, unheard, same, next, left⟩ := h.found_reply fits finds
      cases same
      refine ⟨[r], { h with
        agent, sound, down := ⟨unheard, next, left⟩, open_ := ?_, issued := ?_ },
        .reply r⟩
      · exact (CallTable.receive_closed r).trans h.open_
      · exact (CallTable.receive_issued r).trans h.issued
  | readerDone reads sound finds amiss =>
      obtain ⟨r, -, same, -⟩ := h.found_reply fits finds
      exact absurd same (amiss r)
  | stop reads dropped =>
      rw [show c.controllerEnd.side.dropped = false from h.kept] at dropped
      cases dropped
  | @take r rest alive free next =>
      have silent : c.near.sending = [] := h.silent free
      have all : made = asked ++ (unread ++ [r]) ++ rest := by
        rw [all, show c.near.side.queue = r :: rest from next]
        simp
      have sent : c.far.undecoded ++ c.up.bytes ++ Wire.frame (encodeRequest r) =
          frames encodeRequest (unread ++ [r]) := by
        rw [silent, List.append_nil] at sent
        rw [Wire.frames_append, ← sent]
        simp [frames]
      have busy : some r = none → Wire.frame (encodeRequest r) = [] :=
        fun never => by cases never
      refine quiet ?_
      exact { h with agent, silent := busy, up := ⟨unread ++ [r], all, sent⟩ }
  | @push bs rest bytes some held =>
      have silent : c.near.side.writing = none → rest = [] := by
        intro free
        have nothing := (h.silent free).symm.trans bytes
        exact (List.append_eq_nil_iff.mp nothing.symm).2
      have sent : c.far.undecoded ++ (c.up.bytes ++ bs) ++ rest =
          frames encodeRequest unread := by
        rw [← sent, show c.near.sending = bs ++ rest from bytes]
        simp only [List.append_assoc]
      refine quiet ?_
      exact { h with agent, silent, up := ⟨unread, all, sent⟩ }
  | fail gone =>
      rw [show c.controllerEnd.outbound.readerHeld = true from h.upHeld.2] at gone
      cases gone
  | flush silent busy =>
      refine quiet ?_
      exact { h with agent, silent := fun _ => silent }
  | finish dropped =>
      rw [show c.controllerEnd.side.dropped = false from h.kept] at dropped
      cases dropped
  | release gone =>
      rw [show c.controllerEnd.side.readerGone = false from h.readerStays] at gone
      cases gone

/-- A call of the owner is entered into the table and its request queued. -/
theorem call_eq (h : Traffic s c made asked out got) (x : Exchange)
    (request : UInt64 → Request) :
    c.near.side.call x request =
      { c.near.side with
        calls := c.near.side.calls.issue x
        queue := c.near.side.queue ++ [request (UInt64.ofNat made.length)] } := by
  have alive : c.near.side.WriterStays := by
    intro gone
    rw [h.writerStays] at gone
    cases gone
  rw [Controller.call_of_open alive h.open_ h.kept, CallTable.nextId, h.issued]

theorem call (h : Traffic s c made asked out got) (r : Request)
    (request : UInt64 → Request)
    (named : request (UInt64.ofNat made.length) = r)
    (numbered : r.id = UInt64.ofNat made.length) :
    Traffic s
      (c.withController { c.controllerEnd with
        side := c.near.side.call r.exchange request })
      (made ++ [r]) asked out got ∧
      Tabled c.near.side.calls (c.near.side.call r.exchange request).calls
        [r] [] := by
  rw [h.call_eq, named]
  obtain ⟨unread, all, sent⟩ := h.up
  have all : made ++ [r] = asked ++ unread ++ (c.near.side.queue ++ [r]) := by
    rw [all]
    simp only [List.append_assoc]
  refine ⟨{ h with
    agent := h.agent.rewire _ _, up := ⟨unread, all, sent⟩,
    open_ := ?_, issued := ?_ },
    .call r ?_⟩
  · exact (CallTable.issue_closed _).trans h.open_
  · rw [List.length_append, ← h.issued]
    exact CallTable.issue_issued _
  · rw [numbered, CallTable.nextId, h.issued]

/-- Every move but dropping the controller keeps the traffic going. -/
theorem step [s.IsDecided] (h : Traffic s c made asked out got) {m : Move}
    {c' : Connection}
    (fits : ∀ r ∈ s.replies 0 (made ++ m.requests made.length), Fits r)
    (step : c.step? s m = some c') (kept : m ≠ .drop) :
    ∃ asked out came, Traffic s c' (made ++ m.requests made.length) asked out
      (got ++ came) ∧
      Tabled c.near.side.calls c'.near.side.calls
        (m.requests made.length) came := by
  cases m with
  | controller m =>
      obtain ⟨w, moved, rfl⟩ := Option.map_eq_some_iff.mp step
      rw [Move.requests, List.append_nil] at fits ⊢
      obtain ⟨came, traffic, table⟩ :=
        h.controllerMove fits (ControllerEnd.step_of_step? h.sound moved)
      exact ⟨asked, out, came, traffic, table⟩
  | agent m =>
      obtain ⟨w, moved, rfl⟩ := Option.map_eq_some_iff.mp step
      rw [Move.requests, List.append_nil] at fits ⊢
      obtain ⟨asked, out, traffic⟩ :=
        h.agentMove fits (AgentEnd.step_of_step? h.agent.sound moved)
      exact ⟨asked, out, traffic.quiet⟩
  | elapse ms =>
      cases step
      rw [Move.requests, List.append_nil]
      refine ⟨asked, out, quiet ?_⟩
      exact { h with agent := h.agent.elapse ms }
  | lookup pid =>
      obtain ⟨w, called, rfl⟩ := Option.map_eq_some_iff.mp step
      obtain ⟨side, act, rfl⟩ := ControllerEnd.act?_eq_some called
      cases Controller.step_of_step? act
      obtain ⟨traffic, table⟩ :=
        h.call (.lookup (UInt64.ofNat made.length) pid) (.lookup · pid) rfl rfl
      exact ⟨asked, out, [], by rwa [List.append_nil], table⟩
  | health =>
      obtain ⟨w, called, rfl⟩ := Option.map_eq_some_iff.mp step
      obtain ⟨side, act, rfl⟩ := ControllerEnd.act?_eq_some called
      cases Controller.step_of_step? act
      obtain ⟨traffic, table⟩ :=
        h.call (.health (UInt64.ofNat made.length)) .health rfl rfl
      exact ⟨asked, out, [], by rwa [List.append_nil], table⟩
  | drop => exact absurd rfl kept

end Traffic

variable {s : Setup} {up down : Nat} {ms : List Move} {c : Connection}

/-- Every run on a connection that is kept open keeps the traffic going. With it
goes what the table says of the calls that were made and the replies that came, if
each move keeps that. -/
theorem traffic_of_run [s.IsDecided]
    {P : CallTable → List Request → List Reply → Prop} (init : P .empty [] [])
    (keep : ∀ {c c' : Connection} {made more asked asked' out out' got came},
      Traffic s c made asked out got →
      Traffic s c' (made ++ more) asked' out' (got ++ came) →
      Tabled c.near.side.calls c'.near.side.calls more came →
      P c.near.side.calls made got →
      P c'.near.side.calls (made ++ more) (got ++ came))
    (run : ms.foldlM (step? s) (fresh s up down) = some c) (kept : .drop ∉ ms)
    (fits : ∀ r ∈ s.replies 0 (requests ms), Fits r) :
    ∃ asked out got, Traffic s c (requests ms) asked out got ∧
      P c.near.side.calls (requests ms) got := by
  revert kept fits
  refine Run.induct
    (P := fun ms c => .drop ∉ ms → (∀ r ∈ s.replies 0 (requests ms), Fits r) →
    ∃ asked out got, Traffic s c (requests ms) asked out got ∧
      P c.near.side.calls (requests ms) got)
    (fun _ _ => ⟨[], [], [], .start s up down, init⟩) ?_ run
  intro ms c m c' _ ih step kept fits
  rw [requests_concat] at fits ⊢
  have keeps : .drop ∉ ms := fun listed => kept (List.mem_append_left _ listed)
  have last : m ≠ .drop := by
    rintro rfl
    exact kept (by simp)
  obtain ⟨asked, out, got, traffic, table⟩ := ih keeps (fits_of_append fits)
  obtain ⟨asked', out', came, traffic', moved⟩ := traffic.step fits step last
  exact ⟨asked', out', got ++ came, traffic', keep traffic traffic' moved table⟩

/-! ## Capacities -/

/-- A pipe stays as wide as it is. -/
theorem capacity_step (sound : c.near.splitter.IsSound)
    (sound' : c.far.splitter.IsSound) {m : Move}
    {c' : Connection} (step : c.step? s m = some c') :
    c'.up.capacity = c.up.capacity ∧ c'.down.capacity = c.down.capacity := by
  cases m with
  | controller m =>
      obtain ⟨w, moved, rfl⟩ := Option.map_eq_some_iff.mp step
      cases ControllerEnd.step_of_step? sound moved <;> exact ⟨rfl, rfl⟩
  | agent m =>
      obtain ⟨w, moved, rfl⟩ := Option.map_eq_some_iff.mp step
      cases AgentEnd.step_of_step? sound' moved <;> exact ⟨rfl, rfl⟩
  | elapse ms =>
      cases step
      exact ⟨rfl, rfl⟩
  | lookup pid | health | drop =>
      obtain ⟨w, called, rfl⟩ := Option.map_eq_some_iff.mp step
      obtain ⟨side, -, rfl⟩ := ControllerEnd.act?_eq_some called
      exact ⟨rfl, rfl⟩

theorem capacity_of_traffic [s.IsDecided]
    (run : ms.foldlM (step? s) (fresh s up down) = some c) (kept : .drop ∉ ms)
    (fits : ∀ r ∈ s.replies 0 (requests ms), Fits r) :
    c.up.capacity = up ∧ c.down.capacity = down := by
  revert kept fits
  refine Run.induct
    (P := fun ms c => .drop ∉ ms → (∀ r ∈ s.replies 0 (requests ms), Fits r) →
    c.up.capacity = up ∧ c.down.capacity = down) (fun _ _ => ⟨rfl, rfl⟩) ?_ run
  intro ms c m c' run ih step kept fits
  rw [requests_concat] at fits
  have keeps : .drop ∉ ms := fun listed => kept (List.mem_append_left _ listed)
  obtain ⟨asked, out, got, traffic, -⟩ :=
    traffic_of_run (P := fun _ _ _ => True) trivial
      (fun _ _ _ _ => trivial) run keeps
      (fits_of_append fits)
  obtain ⟨sameUp, sameDown⟩ := capacity_step traffic.sound traffic.agent.sound step
  obtain ⟨wideUp, wideDown⟩ := ih keeps (fits_of_append fits)
  exact ⟨sameUp.trans wideUp, sameDown.trans wideDown⟩

end ElementAgent.Connection

import ElementAgent.Proofs.Call.Closing
import ElementAgent.Proofs.Connection.Hindsight
import ElementAgent.Proofs.Connection.Work

/-!
# No call waits for nothing

As long as a call is outstanding something will happen: a task can move, or a
lookup is running whose time will come. Main statements:

* **waiting**: to the id of a call that is outstanding more requests were made
  than replies came (`CallTable.Waits`), however often ids have been used
  (`waits_of_run`);
* **owner**: a move of a controller on its pipes is a run of the controller alone
  (`ControllerEnd.acts_of_step?`), so a controller that was dropped with calls
  outstanding can stop its reader (`stop_of_dropped`);
* **progress**: two ends that share pipes of any width never block each other
  (`never_deadlocked`).
-/

namespace ElementAgent

/-! ## Waiting -/

/-- For every call that is outstanding a reply under its id is still to come. -/
def CallTable.Waits (t : CallTable) (made : List Request)
    (got : List Reply) : Prop :=
  ∀ e ∈ t.pending, (got.map Reply.id).count e.1 < (made.map Request.id).count e.1

/-- Once every reply has come nothing is outstanding. -/
theorem CallTable.Waits.pending_eq_nil {s : Agent.Setup} {t : CallTable}
    {made : List Request} {got : List Reply} (waits : t.Waits made got)
    (all : (s.replies 0 made).Perm got) :
    t.pending = [] := by
  refine List.eq_nil_iff_forall_not_mem.mpr fun e listed => ?_
  have more := waits e listed
  rw [← (all.map Reply.id).count_eq, s.replies_ids] at more
  exact Nat.lt_irrefl _ more

namespace Connection

open Agent (Setup)
open AgentEnd (Fits)

variable {s : Setup} {c : Connection} {made asked : List Request}
  {out got : List Reply}

/-- Under no id more replies have come than requests were made. -/
theorem Traffic.count_le (h : Traffic s c made asked out got) (id : UInt64) :
    (got.map Reply.id).count id ≤ (made.map Request.id).count id := by
  obtain ⟨some, same, earlier⟩ := h.got_subperm
  rw [← s.replies_ids 0, ← (same.map Reply.id).count_eq]
  exact (earlier.map Reply.id).count_le id

theorem Traffic.waits {t t' : CallTable} {more : List Request} {came : List Reply}
    (h : Traffic s c made asked out got) (waits : t.Waits made got)
    (moved : Tabled t t' more came) :
    t'.Waits (made ++ more) (got ++ came) := by
  cases moved with
  | kept => simpa using waits
  | call r named =>
      intro e listed
      rw [List.append_nil, List.map_append, List.count_append]
      rcases CallTable.mem_pending_issue listed with old | new
      · exact Nat.lt_of_lt_of_le (waits e old) (Nat.le_add_right _ _)
      · -- the request of the call is one more
        have one : ([r].map Request.id).count e.1 = 1 := by simp [named, new]
        rw [one]
        exact Nat.lt_succ_of_le (h.count_le e.1)
  | reply r =>
      intro e listed
      obtain ⟨old, other⟩ := CallTable.mem_pending_receive listed
      have none_more : ([r].map Reply.id).count e.1 = 0 := by simp [other.symm]
      rw [List.append_nil, List.map_append, List.count_append, none_more]
      exact waits e old

variable {ms : List Move} {up down : Nat}

theorem waits_of_run [s.IsDecided]
    (run : ms.foldlM (step? s) (fresh s up down) = some c) (kept : .drop ∉ ms)
    (fits : ∀ r ∈ s.replies 0 (requests ms), Fits r) :
    ∃ asked out got, Traffic s c (requests ms) asked out got ∧
      c.near.side.calls.Waits (requests ms) got :=
  traffic_of_run (P := CallTable.Waits) (fun _ never => by cases never)
    (fun traffic _ moved waits => traffic.waits waits moved) run kept fits

end Connection

/-! ## The controller alone -/

namespace ControllerEnd

variable {w w' : ControllerEnd} {m : Move}

theorem acts_of_act? {e : Controller.Event} (h : act? w e = some w') :
    [e].foldlM Controller.step? w.side = some w'.side := by
  obtain ⟨c, act, rfl⟩ := act?_eq_some h
  simpa using act

/-- A move is a run of the controller alone. -/
theorem acts_of_step? (h : w.step? m = some w') :
    ∃ acts : List Controller.Event, acts.foldlM Controller.step? w.side =
      some w'.side := by
  cases m with
  | pull n =>
      simp only [step?] at h
      split_ifs at h
      obtain ⟨bs, rest, -, -, rfl⟩ := Wired.pull?_eq_some h
      exact ⟨[], rfl⟩
  | push n =>
      obtain ⟨bs, rest, -, -, -, rfl⟩ := Wired.push?_eq_some h
      exact ⟨[], rfl⟩
  | release =>
      simp only [step?] at h
      split_ifs at h
      cases h
      exact ⟨[], rfl⟩
  | stop => exact ⟨_, acts_of_act? h⟩
  | read =>
      simp only [step?] at h
      split_ifs at h
      split at h
      case h_1 found | h_2 found | h_3 found =>
        exact ⟨_, Wired.found?_side found ▸ acts_of_act? h⟩
      case h_4 => cases h
  | flush =>
      simp only [step?] at h
      split_ifs at h
      exact ⟨_, acts_of_act? h⟩
  | fail =>
      simp only [step?] at h
      split_ifs at h
      obtain ⟨w₁, failed, rfl⟩ := Option.map_eq_some_iff.mp h
      have alone := acts_of_act? failed
      exact ⟨_, alone⟩
  | finish =>
      obtain ⟨w₁, done, rfl⟩ := Option.map_eq_some_iff.mp h
      have alone := acts_of_act? done
      exact ⟨_, alone⟩
  | take =>
      obtain ⟨w₁, taken, h⟩ := Option.bind_eq_some_iff.mp h
      have first := acts_of_act? taken
      split at h
      case h_2 => cases h
      split at h
      case h_1 =>
          cases h
          exact ⟨_, first⟩
      case h_2 => exact ⟨_, Run.append first (acts_of_act? h)⟩

end ControllerEnd

/-- An owner who has let go stays away. -/
theorem Controller.dropped_of_mem {c : Controller} {es : List Controller.Event}
    (run : es.foldlM Controller.step? .fresh = some c) (dropped : .drop ∈ es) :
    c.dropped = true := by
  refine Run.of_mem (P := fun c => c.dropped = true) ?_ ?_ run dropped
  · intro c c' step
    cases step_of_step? step
    rfl
  · intro c e c' step gone
    cases step_of_step? step with
    | lookup | health => rwa [call_dropped]
    | drop => rfl
    | take | wrote | writeFailed | writerDone | receive | readerDone => exact gone

namespace Connection

open Agent (Setup)
open AgentEnd (Fits)

variable {s : Setup} {c : Connection} {ms : List Move} {up down : Nat}

/-- A run on a connection is a run of the controller alone, in which it is dropped
if it is dropped in the run. -/
theorem controller_of_run (run : ms.foldlM (step? s) (fresh s up down) = some c) :
    ∃ acts : List Controller.Event, acts.foldlM Controller.step? .fresh =
      some c.near.side ∧
      (.drop ∈ ms → .drop ∈ acts) := by
  refine Run.induct (P := fun ms c => ∃ acts : List Controller.Event,
    acts.foldlM Controller.step? .fresh = some c.near.side ∧
    (.drop ∈ ms → .drop ∈ acts))
    ⟨[], rfl, by simp⟩ ?_ run
  intro ms c m c' _ ih step
  obtain ⟨before, first, drops⟩ := ih
  have last : ∃ acts : List Controller.Event,
      acts.foldlM Controller.step? c.near.side = some c'.near.side ∧
      (m = .drop → .drop ∈ acts) := by
    cases m with
    | controller m =>
        obtain ⟨w, moved, rfl⟩ := Option.map_eq_some_iff.mp step
        obtain ⟨acts, alone⟩ := ControllerEnd.acts_of_step? moved
        exact ⟨acts, alone, fun never => by cases never⟩
    | agent m =>
        obtain ⟨w, moved, rfl⟩ := Option.map_eq_some_iff.mp step
        exact ⟨[], rfl, fun never => by cases never⟩
    | elapse ms =>
        cases step
        exact ⟨[], rfl, fun never => by cases never⟩
    | lookup pid | health | drop =>
        obtain ⟨w, called, rfl⟩ := Option.map_eq_some_iff.mp step
        exact ⟨_, ControllerEnd.acts_of_act? called, by simp⟩
  obtain ⟨acts, alone, dropped⟩ := last
  refine ⟨before ++ acts, Run.append first alone, fun listed => ?_⟩
  rcases List.mem_append.mp listed with earlier | new
  · exact List.mem_append_left _ (drops earlier)
  · exact List.mem_append_right _ (dropped (List.mem_singleton.mp new).symm)

/-- A controller that was dropped while calls are outstanding can
stop its reader. -/
theorem stop_of_dropped (run : ms.foldlM (step? s) (fresh s up down) = some c)
    (dropped : .drop ∈ ms) (waits : c.near.side.calls.pending ≠ []) :
    ∃ c', c.step? s (.controller .stop) = some c' := by
  obtain ⟨acts, alone, drops⟩ := controller_of_run run
  have let_go := Controller.dropped_of_mem alone (drops dropped)
  have reads : c.near.side.readerGone = false := by
    by_contra gone
    have closed := Controller.closed_of_readerGone alone (by simpa using gone)
    exact waits (Controller.sealed_of_run alone closed)
  simp [step?, ControllerEnd.step?, ControllerEnd.act?, Controller.step?,
    controllerEnd, reads, let_go]

/-! ## Progress -/

/-- Where no task can move, the connection stands still. -/
theorem stands_of_stuck (stuck : ∀ m, m.isTask = true → c.step? s m = none) :
    Stands s c where
  controller m := Option.map_eq_none_iff.mp (stuck (.controller m) rfl)
  agent m _ := Option.map_eq_none_iff.mp (stuck (.agent m) rfl)

/-- A lookup that runs can come to its end at once, or when its time has come. -/
theorem now_or_later (o : c.far.side.Orderly s) {l : Agent.Lookup} {since : Nat}
    (held : l ∈ c.far.side.lookups) (runs : l.stage = .running since) :
    (∃ c', c.step? s (.agent (.finish l.number)) = some c') ∨
      c.far.side.now < s.due l since ∧
        ∃ c₁ c₂, c.step? s (.elapse (s.due l since - c.far.side.now)) = some c₁ ∧
          c₁.step? s (.agent (.finish l.number)) = some c₂ := by
  by_cases due : s.due l since ≤ c.far.side.now
  · -- no time need pass
    obtain ⟨c₁, c₂, waits, ends⟩ := finish_opens o held runs (t := 0) due
    cases waits
    exact .inl ⟨c₂, ends⟩
  · have later : s.due l since ≤
        c.far.side.now + (s.due l since - c.far.side.now) := by omega
    exact .inr ⟨Nat.lt_of_not_le due, finish_opens o held runs later⟩

/-- As long as a call is outstanding, a connection of a decided setup does not
stand still with no lookup left to wait for. -/
theorem exists_running [s.IsDecided]
    (run : ms.foldlM (step? s) (fresh s up down) = some c)
    (kept : .drop ∉ ms) (fits : ∀ r ∈ s.replies 0 (requests ms), Fits r)
    (upWide : 0 < up) (downWide : 0 < down)
    (waits : c.near.side.calls.pending ≠ [])
    (stands : Stands s c) :
    c.far.side.Orderly s ∧
    ∃ l ∈ c.far.side.lookups, ∃ since, l.stage = .running since := by
  obtain ⟨asked, out, got, traffic, waiting⟩ := waits_of_run run kept fits
  obtain ⟨wideUp, wideDown⟩ := capacity_of_traffic run kept fits
  refine ⟨traffic.agent.orderly, ?_⟩
  by_contra none_runs
  have ended : c.far.side.lookups = [] := by
    by_contra left
    obtain ⟨l, held⟩ := List.exists_mem_of_ne_nil _ left
    obtain ⟨-, empty⟩ := stands.replied traffic fits (wideDown ▸ downWide)
    exact none_runs ⟨l, held, stands.agent.running traffic.agent empty held⟩
  have all :=
    stands.answered traffic fits (wideUp ▸ upWide) (wideDown ▸ downWide) ended
  exact waits (waiting.pending_eq_nil all)

/-- However far the ends have come, over pipes of any width and with any number of
permits: as long as a call is outstanding some task can move, or a lookup is
running whose answer is due at a later time, no later than the timeout after its
start, and can be had then. -/
theorem never_deadlocked (run : ms.foldlM (step? s) (fresh s up down) = some c)
    (fits : ∀ r ∈ (hindsight s up down ms).replies 0 (requests ms), Fits r)
    (upWide : 0 < up) (downWide : 0 < down)
    (waits : c.near.side.calls.inFlight ≠ 0) :
    (∃ m c', m.isTask = true ∧ c.step? s m = some c') ∨
      ∃ l ∈ c.far.side.lookups, ∃ since, l.stage = .running since ∧
        c.far.side.now < s.due l since ∧ s.due l since ≤ since + s.timeout ∧
        ∃ c₁ c₂, c.step? s (.elapse (s.due l since - c.far.side.now)) = some c₁ ∧
          c₁.step? s (.agent (.finish l.number)) = some c₂ := by
  have outstanding : c.near.side.calls.pending ≠ [] :=
    fun none => waits (by simp [CallTable.inFlight, none])
  by_cases kept : .drop ∈ ms
  · obtain ⟨c', stops⟩ := stop_of_dropped run kept outstanding
    exact .inl ⟨_, c', rfl, stops⟩
  by_contra nothing
  obtain ⟨stuck, never⟩ := not_or.mp nothing
  have stands : Stands (hindsight s up down ms) c := stands_of_stuck fun m task =>
    step?_inHindsight_eq_none.mpr <|
      Option.eq_none_iff_forall_ne_some.mpr fun c' moves =>
        stuck ⟨m, c', task, moves⟩
  obtain ⟨orderly, l, held, since, runs⟩ :=
    exists_running (run_hindsight run) kept fits upWide downWide outstanding stands
  rcases now_or_later orderly held runs with ends | ⟨later, c₁, c₂, waited, ends⟩
  · obtain ⟨c', ends⟩ := opens_inHindsight.mp ends
    exact stuck ⟨_, c', rfl, ends⟩
  · rw [hindsight, Setup.due_inHindsight] at later waited
    obtain ⟨c₂, ends⟩ := opens_inHindsight.mp ⟨c₂, ends⟩
    exact never ⟨l, held, since, runs, later, s.due_le l since, c₁, c₂,
      waited, ends⟩

/-- One lookup at a time, which is answered at once. -/
def single : Setup := .of 1 20 fun _ _ => ⟨some 0, .ok "app"⟩

/-- The way of the next request to the agent, over a pipe that it fills. -/
def delivery : List Move :=
  [.controller .take, .controller (.push 25), .controller .flush, .agent (.pull 25),
    .agent .read]

/-- The way of the lookup with a number to its answer. -/
def answering (number : Nat) : List Move :=
  [.agent .grant, .agent (.begin number), .agent (.finish number)]

/-- Six calls over narrow pipes, of which nobody reads the replies. The first
reply fills the pipe, the second one the queue, the third lookup keeps the permit,
the fourth waits for it with the reader, and the fifth fills the pipe to the agent
before the sixth. -/
def jam : List Move :=
  List.replicate 6 (.lookup 1) ++
    delivery ++ answering 0 ++
      [.agent (.hand 0), .agent .take, .agent (.push 10)] ++
    delivery ++ answering 1 ++ [.agent (.hand 1)] ++ delivery ++
      answering 2 ++ delivery ++
    [.controller .take, .controller (.push 25), .controller .flush,
      .controller .take]

/-- After that run both pipes and the queue are full and no permit is free, and
still a task can move. -/
theorem jam_moves : ∃ c, jam.foldlM (step? single) (fresh single 25 10) = some c ∧
    c.near.side.calls.inFlight = 6 ∧ c.up.room = 0 ∧ c.down.room = 0 ∧
    c.far.side.queue.length = single.limit ∧ c.far.side.free = 0 ∧
    ∃ m c', m.isTask = true ∧ c.step? single m = some c' := by
  have ends : (jam.foldlM (step? single) (fresh single 25 10)).any (fun c =>
      c.near.side.calls.inFlight = 6 && c.up.room = 0 && c.down.room = 0 &&
        c.far.side.queue.length = single.limit && c.far.side.free = 0 &&
        c.far.side.lookups.all (!·.isRunning)) = true := by
    decide +kernel
  obtain ⟨c, run, ends⟩ := (Option.any_eq_true _ _).mp ends
  simp only [Bool.and_eq_true, decide_eq_true_eq] at ends
  obtain ⟨⟨⟨⟨⟨six, upFull⟩, downFull⟩, queueFull⟩, none_free⟩, idle⟩ := ends
  have fits : ∀ r ∈ (hindsight single 25 10 jam).replies 0 (requests jam),
      Fits r := by
    decide +kernel
  refine ⟨c, run, six, upFull, downFull, queueFull, none_free, ?_⟩
  refine (never_deadlocked run fits (by decide) (by decide)
    (by simp [six])).resolve_right ?_
  rintro ⟨l, held, since, runs, -⟩
  have still := List.all_eq_true.mp idle l held
  simp [Agent.Lookup.isRunning, runs] at still

end Connection

end ElementAgent

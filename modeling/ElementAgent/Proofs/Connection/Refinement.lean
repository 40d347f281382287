import ElementAgent.Link.ConnectionSession
import ElementAgent.Proofs.Connection.Hindsight
import ElementAgent.Proofs.Connection.Work

/-!
# What calls come to

What a call comes to is a matter of the resolver: its plan for the lookup, held
against the timeout, and against the clock where a lookup oversleeps
(`Plan.outcome`). Main statements: on every schedule a connection that is kept
open completes calls with these outcomes only, each once, and counts no violation;
it cannot go on for ever, and where it rests all calls are complete
(`calls_refine_outcomes`); from everywhere it can come to rest (`comes_to_rest`).
A result that comes after the timeout is delivered if the lookup is looked at late
enough, a call whose id is used again fails, and a caller who does not wait is
told nothing (`outcomes_missed`).
-/

namespace ElementAgent

/-! ## Outcomes -/

/-- What a lookup comes to by the resolver's plan: its result, if that came no
later than the timeout, or was found by a lookup that overslept. -/
def Plan.outcome (p : Plan) (timeout : Nat) (overslept : Bool)
    (pid : Pid) : Outcome :=
  match p.delay with
  | none => .error (.agent (.timeout pid))
  | some d =>
    if d ≤ timeout ∨ overslept then
      match p.result with
      | .error f => .error (.agent f)
      | .ok b =>
          if b = "" then .error (.agent (.internal "empty bundle id")) else .ok b
    else .error (.agent (.timeout pid))

namespace Agent.Setup

/-- What the call of a request comes to, before which `k` lookups were asked for,
if the lookups with the numbers `late` oversleep. -/
def completion (s : Setup) (late : List Nat) (k : Nat) : Request → Completion
  | .lookup _ pid =>
      .lookup ((s.plan k pid).outcome s.timeout (late.contains k) pid)
  | .health id => .health (.ok (.serving id))

/-- What all calls come to, under their numbers. -/
def outcomes (s : Setup) (late : List Nat) (rs : List Request) :
    List (Nat × Completion) :=
  rs.mapIdx fun n r => (n, s.completion late (lookupsOf (rs.take n)) r)

variable (s : Setup) (late : List Nat)

/-- The controller makes of a result what the resolver meant. -/
theorem replyOf_outcome (id : UInt64) (result : Except Failure String) :
    (replyOf id result).outcome =
      match result with
      | .error f => .error (.agent f)
      | .ok b =>
          if b = "" then .error (.agent (.internal "empty bundle id"))
          else .ok b := by
  cases result with
  | error f => rfl
  | ok b =>
      by_cases empty : b = ""
      · subst empty
        rfl
      · have named : b.isEmpty = false := by simpa using empty
        simp [replyOf, LookupReply.found, LookupReply.outcome, LookupReply.verdict,
          named, empty]

/-- The controller makes of the agent's answer what the plan says. -/
theorem answer_outcome (id : UInt64) (pid : Pid) (p : Plan) (overslept : Bool) :
    ((s.inHindsight late).answer id pid
      (p.inHindsight s.timeout overslept)).outcome =
      p.outcome s.timeout overslept pid := by
  unfold answer
  rw [duration_inHindsight]
  rcases p with ⟨_ | d, result⟩
  · rfl
  · by_cases in_time : d ≤ s.timeout
    · simp [Plan.inHindsight, Plan.answer, Plan.outcome, duration, in_time,
        replyOf_outcome]
    · have passed : min d s.timeout = s.timeout :=
        Nat.min_eq_right (Nat.le_of_not_le in_time)
      cases overslept with
      | true =>
          simp [Plan.inHindsight, Plan.answer, Plan.outcome, duration, in_time,
            passed, replyOf_outcome]
      | false =>
          simp only [Plan.inHindsight, Plan.answer, Plan.outcome,
            Option.bind_some, in_time]
          rfl

theorem reply_completion (k : Nat) (r : Request) :
    ((s.inHindsight late).reply k r).completion =
      (r.id.toNat, s.completion late k r) := by
  rw [Reply.completion, reply_id, reply_exchange]
  cases r with
  | health id => rfl
  | lookup id pid =>
      have same := s.answer_outcome late id pid (s.plan k pid) (late.contains k)
      exact congrArg (fun o => (id.toNat, Completion.lookup o)) same

/-- Where ids are not used twice, the replies complete their calls
with the outcomes. -/
theorem replies_completion {made : List Request}
    (ask : Connection.Askable (s.inHindsight late) made) :
    ((s.inHindsight late).replies 0 made).map Reply.completion =
      s.outcomes late made := by
  refine List.ext_getElem? fun n => ?_
  rw [List.getElem?_map, getElem?_replies, outcomes, List.getElem?_mapIdx,
    Nat.zero_add]
  cases asked : made[n]? with
  | none => rfl
  | some r =>
      have inside : n < made.length := (List.getElem?_eq_some_iff.mp asked).1
      have number : r.id.toNat = n := by
        rw [ask.numbered n r asked]
        exact toNat_id (Nat.lt_of_lt_of_le inside ask.few)
      simp only [Option.map_some, s.reply_completion late, number]

end Agent.Setup

namespace Connection

open Agent (Setup)
open AgentEnd (Fits)

variable {s : Setup} {c : Connection} {ms : List Move} {up down : Nat}

/-! ## Coming to rest -/

/-- Where a connection is not at rest some task can move in time. -/
theorem exists_task_of_not_atRest (busy : ¬ AtRest s c) :
    ∃ t c' m c'', c.step? s (.elapse t) = some c' ∧ c'.step? s m = some c'' ∧
      m.isTask = true := by
  simp only [AtRest, not_forall, not_and_or] at busy
  obtain ⟨t, c', waits, ⟨m, moves⟩ | ⟨m, moves⟩⟩ := busy
  · obtain ⟨c'', moves⟩ := Option.ne_none_iff_exists'.mp moves
    exact ⟨t, c', _, c'', waits, moves, rfl⟩
  · obtain ⟨c'', moves⟩ := Option.ne_none_iff_exists'.mp moves
    exact ⟨t, c', _, c'', waits, moves, rfl⟩

theorem Move.requests_of_isTask {m : Move} (task : m.isTask = true) (n : Nat) :
    m.requests n = [] := by
  cases m with
  | controller m | agent m => rfl
  | lookup pid | health | drop | elapse t => cases task

/-- A run makes no more than `requestWork` moves for each call, in
hindsight as well. -/
theorem moves_le_of_run (run : ms.foldlM (step? s) (fresh s up down) = some c)
    (kept : .drop ∉ ms) (ask : Askable (hindsight s up down ms) (requests ms)) :
    ms.countP Move.isTask ≤ (requests ms).length * requestWork := by
  have bound := moves_le (run_hindsight run) kept ask
  exact Nat.le_trans (Nat.le_add_right _ _) bound

/-- Where a connection is not at rest, time and one more task can move it on. -/
theorem exists_longer (busy : ¬ AtRest s c) : ∃ more c', .drop ∉ more ∧
    (∀ ms, requests (ms ++ more) = requests ms) ∧
    more.foldlM (step? s) c = some c' ∧
    more.countP Move.isTask = 1 := by
  obtain ⟨t, c₁, m, c₂, waits, moves, task⟩ := exists_task_of_not_atRest busy
  have other : m ≠ .drop := by
    rintro rfl
    cases task
  have first : [Move.elapse t].foldlM (step? s) c = some c₁ := by simpa using waits
  refine ⟨[.elapse t] ++ [m], c₂,
    by simp [other.symm], fun ms => ?_, Run.concat first moves, ?_⟩
  · rw [← List.append_assoc, requests_concat, Move.requests_of_isTask task,
      List.append_nil, requests_concat, Move.requests, List.append_nil]
  · rw [List.countP_append, List.countP_singleton, List.countP_singleton,
      if_pos task]
    rfl

/-- From everywhere the tasks come to rest, if they are given the time. -/
theorem comes_to_rest (run : ms.foldlM (step? s) (fresh s up down) = some c)
    (kept : .drop ∉ ms)
    (ask : ∀ late, Askable (s.inHindsight late) (requests ms)) :
    ∃ more c', .drop ∉ more ∧ requests (ms ++ more) = requests ms ∧
      more.foldlM (step? s) c = some c' ∧ AtRest s c' := by
  -- by induction on the moves that are left
  generalize left : (requests ms).length * requestWork - ms.countP Move.isTask = n
  induction n using Nat.strong_induction_on generalizing ms c with
  | _ n ih =>
      by_cases rest : AtRest s c
      · exact ⟨[], c, by simp, by simp, rfl, rest⟩
      obtain ⟨more, c₁, keeps, quiet, moves, one⟩ := exists_longer rest
      have run₁ := Run.append run moves
      have kept₁ : .drop ∉ ms ++ more := by simp [kept, keeps]
      have ask₁ : ∀ late, Askable (s.inHindsight late) (requests (ms ++ more)) :=
        quiet ms ▸ ask
      have fewer : (requests (ms ++ more)).length * requestWork -
          (ms ++ more).countP Move.isTask < n := by
        have bound := moves_le_of_run run₁ kept₁ (ask₁ _)
        rw [quiet, List.countP_append, one] at bound ⊢
        omega
      obtain ⟨rest, c', keeps', quiet', moves', rests⟩ :=
        ih _ fewer run₁ kept₁ ask₁ rfl
      refine ⟨more ++ rest, c',
        by simp [keeps, keeps'], ?_, Run.append moves moves', rests⟩
      rw [← List.append_assoc, quiet', quiet]

/-! ## Refinement -/

/-- Calls come to their outcomes and to nothing else, each once. -/
theorem Ledger.completed_subperm {late : List Nat} {made asked : List Request}
    {out got : List Reply}
    (h : Ledger (s.inHindsight late) c made asked out got)
    (ask : Askable (s.inHindsight late) made) :
    c.near.side.calls.completed.Subperm (s.outcomes late made) := by
  obtain ⟨some, same, earlier⟩ := h.got_subperm
  rw [h.table.completed, ← s.replies_completion late ask]
  exact ⟨some.map _, (same.map _).trans (List.reverse_perm _).symm, earlier.map _⟩

/-- On a connection that is kept open, whatever the schedule, calls come to their
outcomes and to nothing else, each once, and nothing is counted as a violation.
The tasks make a bounded number of moves; where they have come to rest, or as many
calls are complete as were made, every call has its outcome and none is
outstanding. -/
theorem calls_refine_outcomes (run : ms.foldlM (step? s) (fresh s up down) = some c)
    (kept : .drop ∉ ms) (few : (requests ms).length ≤ maxCalls)
    (fits : ∀ r ∈ (hindsight s up down ms).replies 0 (requests ms), Fits r)
    (upWide : 0 < up) (downWide : 0 < down) :
    c.near.side.calls.completed.Subperm
      (s.outcomes (oversleptIn s up down ms) (requests ms)) ∧
      c.near.side.calls.violations = 0 ∧
      ms.countP Move.isTask ≤ (requests ms).length * requestWork ∧
      (AtRest s c ∨ c.near.side.calls.completed.length = (requests ms).length →
        c.near.side.calls.completed.Perm
          (s.outcomes (oversleptIn s up down ms) (requests ms)) ∧
          c.near.side.calls.inFlight = 0) := by
  have ask : Askable (hindsight s up down ms) (requests ms) :=
    ⟨requests_numbered ms, few, fits⟩
  have run' := run_hindsight run
  obtain ⟨asked, out, got, ledger⟩ := ledger_of_run run' kept ask
  have earlier := Ledger.completed_subperm ledger ask
  refine ⟨earlier, ledger.table.violations, moves_le_of_run run kept ask,
    fun ends => ?_⟩
  have all : got.length = (requests ms).length := by
    rcases ends with rest | complete
    · obtain ⟨wideUp, wideDown⟩ := capacity_of_traffic run' kept fits
      have came := answered_of_atRest ledger ask (wideUp ▸ upWide)
        (wideDown ▸ downWide) rest.inHindsight
      rw [← came.length_eq, Setup.length_replies]
    · rw [← complete, ledger.table.completed, List.length_reverse, List.length_map]
  refine ⟨earlier.perm_of_length_le ?_, ledger.table.inFlight all⟩
  rw [ledger.table.completed, List.length_reverse, List.length_map, all]
  simp [Setup.outcomes]

/-- Two lookups at a time; process 1 takes longer than the agent waits, process 2
just as long. -/
def pair : Setup :=
  .of 2 20 fun _ pid => ⟨some (if pid = 1 then 21 else 20), .ok "app"⟩

/-- Three calls in bytes that are cut everywhere; the replies come
in another order. -/
def overtaking : List Move :=
  [.lookup 1, .controller .take, .controller (.push 20), .agent (.pull 20), .health,
    .controller (.push 5), .controller .flush, .lookup 2, .controller .take,
    .controller (.push 17), .controller .flush, .controller .take,
    .controller (.push 25), .controller .flush, .agent (.pull 47), .agent .read,
    .agent .grant, .agent (.begin 0), .agent .read, .agent .report, .agent .read,
    .agent .grant, .agent (.begin 1), .elapse 20, .agent (.finish 1),
    .agent (.hand 1), .agent .take, .agent (.push 40), .controller (.pull 3),
    .agent (.push 1), .agent .flush, .agent .take, .agent (.push 41),
    .agent (.finish 0), .agent .flush, .agent (.hand 0), .agent .take,
    .agent (.push 86), .controller (.pull 79), .controller .read, .controller .read,
    .controller (.pull 86), .controller .read]

/-- In that run every call comes to its outcome. -/
theorem overtaking_complete :
    ∃ c, overtaking.foldlM (step? pair) (fresh pair 50 200) = some c ∧
      c.near.side.calls.completed.Perm
        [(0, .lookup (.error (.agent (.timeout 1)))),
          (1, .health (.ok (.serving 1))), (2, .lookup (.ok "app"))] ∧
      c.near.side.calls.inFlight = 0 := by
  have ends : (overtaking.foldlM (step? pair) (fresh pair 50 200)).any
      (fun c => c.near.side.calls.completed.length = 3) = true := by
    decide +kernel
  obtain ⟨c, run, complete⟩ := (Option.any_eq_true _ _).mp ends
  have awake : oversleptIn pair 50 200 overtaking = [] := by
    decide +kernel
  have fits : ∀ r ∈ (hindsight pair 50 200 overtaking).replies 0
      (requests overtaking), Fits r := by
    rw [hindsight, awake]
    decide +kernel
  obtain ⟨-, -, -, settled⟩ :=
    calls_refine_outcomes run (by simp [overtaking]) (by decide +kernel) fits
    (by decide) (by decide)
  rw [awake] at settled
  exact ⟨c, run, settled (.inr (of_decide_eq_true complete))⟩

/-! ## Calls that miss their outcomes -/

deriving instance DecidableEq for Completion, Told

variable {n : Nat}

/-- One lookup at a time, whose resolver answers too late. -/
def tardy : Setup := .of 1 20 fun _ _ => ⟨some 30, .ok "app"⟩

/-- Nobody looks at the lookup until its result has come. -/
def slept : List Move :=
  [.lookup 1, .controller .take, .controller (.push 25), .controller .flush,
    .agent (.pull 25), .agent .read, .agent .grant, .agent (.begin 0), .elapse 100,
    .agent (.finish 0), .agent (.hand 0), .agent .take, .agent (.push 41),
    .agent .flush, .controller (.pull 41), .controller .read]

/-- A connection on which nothing has happened but calls, none of
which is complete. -/
structure Unanswered (c : Connection) (calls : Nat) : Prop where
  writerStays : c.near.side.writerGone = false
  kept : c.near.side.dropped = false
  table : c.near.side.calls.Settled (List.replicate calls (.lookup 0 1)) []

/-- One more call is entered into the table. -/
theorem Unanswered.call (h : Unanswered c n) (s : Setup) :
    ∃ c', c.step? s (.lookup 1) = some c' ∧
    c'.near.side.writerGone = false ∧ c'.near.side.dropped = false ∧
    c'.near.side.calls = c.near.side.calls.issue .lookup := by
  have alive : c.near.side.WriterStays := by
    simp [Controller.WriterStays, h.writerStays]
  have called :=
    Controller.call_of_open alive h.table.open_ h.kept .lookup (.lookup · 1)
  refine ⟨c.withController
    { c.controllerEnd with side := c.near.side.call .lookup (.lookup · 1) },
    ?_, ?_, ?_, ?_⟩
  · simp [step?, ControllerEnd.act?, Controller.step?, controllerEnd, h.kept]
  · simp [withController, called, h.writerStays]
  · simp [withController, called, h.kept]
  · simp [withController, called]

/-- Calls that nobody answers stay outstanding, as long as no id is used again. -/
theorem unanswered_of_calls (s : Setup) (up down : Nat) (few : n ≤ maxCalls) :
    ∃ c, (List.replicate n (.lookup 1)).foldlM (step? s) (fresh s up down) =
      some c ∧
      Unanswered c n := by
  induction n with
  | zero => exact ⟨_, rfl, rfl, rfl, .start⟩
  | succ n ih =>
      obtain ⟨c, run, h⟩ := ih (Nat.le_of_succ_le few)
      obtain ⟨c', called, stays, kept, table⟩ := h.call s
      have room : (List.replicate n (Request.lookup 0 1)).length < maxCalls := by
        rw [List.length_replicate]
        exact few
      have next := h.table.issue room (.lookup 0 1)
      rw [List.replicate_succ']
      refine ⟨c', Run.concat run called, stays, kept, ?_⟩
      rw [List.replicate_succ', table]
      exact next

/-- The call whose id is used again is dropped, and fails. -/
theorem displaced_of_calls (s : Setup) (up down : Nat) :
    ∃ c, (List.replicate (maxCalls + 1) (.lookup 1)).foldlM (step? s)
      (fresh s up down) = some c ∧
      (0, .lookup (.error Disconnect.callDropped.error)) ∈
        c.near.side.calls.completed := by
  obtain ⟨c, run, h⟩ := unanswered_of_calls s up down (Nat.le_refl maxCalls)
  obtain ⟨c', called, -, -, table⟩ := h.call s
  have first : (List.replicate maxCalls (Request.lookup 0 1))[0]? =
      some (.lookup 0 1) :=
    List.getElem?_replicate_of_lt (by decide)
  rw [List.replicate_succ']
  refine ⟨c', Run.concat run called, ?_⟩
  rw [table]
  exact h.table.displaces List.length_replicate first (by simp) .lookup

/-- One lookup at a time, which is answered in time. -/
def punctual : Setup := .of 1 20 fun _ _ => ⟨some 10, .ok "app"⟩

/-- Not every call comes to what its plan says against the timeout alone. A result
that comes after the timeout is delivered if nobody looks at the lookup before; a
call whose id is used again fails; and a caller who gives up before the result is
there is not told of it. -/
theorem outcomes_missed :
    ((slept.foldlM (step? tardy) (fresh tardy 25 200)).map
        (·.near.side.calls.completed) = some [(0, .lookup (.ok "app"))] ∧
      tardy.outcomes [] (requests slept) =
        [(0, .lookup (.error (.agent (.timeout 1))))]) ∧
    (∃ c, (List.replicate (maxCalls + 1) (.lookup 1)).foldlM (step? punctual)
      (fresh punctual 1 1) = some c ∧
      (0, .lookup (.error Disconnect.callDropped.error)) ∈
        c.near.side.calls.completed) ∧
    ((((ConnectionSession.fresh punctual 100).lookupWithin 1 5).rest.advance
      10).told = [(5, 0, .deadline)] ∧
      punctual.outcomes [] [.lookup 0 1] = [(0, .lookup (.ok "app"))]) := by
  refine ⟨⟨?_, ?_⟩, displaced_of_calls punctual 1 1, ?_, ?_⟩
  all_goals decide +kernel

end Connection

end ElementAgent

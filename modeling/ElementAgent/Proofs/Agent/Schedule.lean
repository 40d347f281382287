import ElementAgent.Proofs.Agent.Log
import ElementAgent.Proofs.Agent.Oversize

/-!
# The schedule of lookups

When lookups begin and when their replies are written, on a simulated clock and
with a far end that reads all replies at once. Main statements:

* **on schedule**: as long as the replies fit into frames, each lookup begins at
  the earliest time at or after its arrival at which all before it have begun and
  fewer of them are unfinished than there are permits, and its reply is written
  when it has run for as long as its resolver takes, but no longer than the
  timeout (`lookups_on_schedule`);
* **off schedule**: one reply that fits into no frame costs all lookups their
  replies (`swamped_off_schedule`).
-/

namespace ElementAgent.Talk

open Agent (Setup MayBegin IsFirstCome served)
open AgentEnd (Fits)
open Wire (frames encodeRequest)

variable {s : Setup} {t t' : Talk} {es : List Event} {asked : List Request}
  {out : List Reply} {log log' : Log} {inbound outbound : Nat}

/-! ## The schedule -/

/-- The log of a talk that has settled: each lookup began at the earliest
time at or after its arrival at which all before it had begun and fewer of
them were unfinished than there are permits, and its reply was written when
it came to its end. -/
structure OnSchedule (s : Setup) (t : Talk) (log : Log) : Prop where
  begins : log.begins.Perm log.grants.zipIdx
  inOrder : log.overtaken = [] → log.begins = log.grants.zipIdx
  firstCome : IsFirstCome s.limit log.arrivals (s.jobs 0 t.requests) log.grants
  /-- The next lookup may not have begun yet. -/
  waits : ∀ arrival, log.arrivals[log.grants.length]? = some arrival →
    ∀ time ≤ t.wired.side.now,
    ¬ MayBegin s.limit arrival log.grants (s.jobs 0 t.requests) time
  replies : log.replies.Perm
    ((served log.grants (s.jobs 0 t.requests)).filter fun x =>
      x.1 ≤ t.wired.side.now)

theorem Punctual.onSchedule (h : Punctual s t.requests t log)
    (settled : IsSettled s t) (said : Said s t asked out)
    (fits : ∀ r ∈ s.replies 0 t.requests, Fits r)
    (wide : 0 < t.wired.outbound.capacity) : OnSchedule s t log := by
  obtain ⟨-, -, running⟩ := settled.idle said fits wide
  have due : ∀ l ∈ t.wired.side.lookups, ∀ since, l.stage = .running since →
      t.wired.side.now < s.due l since :=
    fun l held since runs => settled.due said.books.orderly held runs
  have begins : log.begins.Perm log.grants.zipIdx := by
    have all := h.begun.all
    rwa [Agent.Begun.waiting_eq_nil running, List.append_nil] at all
  refine ⟨begins, fun none =>
    (h.begun.inTurn none).eq_of_length begins.length_eq, h.queued.firstCome,
    ?waits, ?replies⟩
  case waits =>
    intro arrival next time early
    rcases Nat.lt_or_eq_of_le early with before | rfl
    · exact h.queued.waits arrival next time before
    · exact h.queued.not_mayBegin h.timed settled said fits wide
        (Nat.le_refl _) due next
  case replies =>
    have all :=
      h.timed.perm_served.symm.filter fun x => decide (x.1 ≤ t.wired.side.now)
    have none :
        (t.wired.side.lookups.map (Agent.Lookup.outcome s log.grants)).filter
        (fun x => decide (x.1 ≤ t.wired.side.now)) = [] := by
      rw [List.filter_eq_nil_iff]
      intro x told
      obtain ⟨l, held, rfl⟩ := List.mem_map.mp told
      obtain ⟨since, runs⟩ := running l held
      rw [h.timed.outcome_of_running held runs, decide_eq_true_eq]
      exact Nat.not_le.mpr (due l held since runs)
    rw [List.filter_append, none, List.nil_append, List.filter_eq_self.mpr
      fun x gone => decide_eq_true (h.timed.pick_le x gone)] at all
    rw [← h.answered.pick_eq (settled.produced_eq said fits wide)]
    exact all.symm

/-- In a decided setup a talk that has settled on a simulated clock
is on schedule. -/
theorem onSchedule_of_run [s.IsDecided]
    (run : es.foldlM (logged? s) (fresh s inbound outbound, .empty) = some (t, log))
    (fits : ∀ r ∈ s.replies 0 t.requests, Fits r) (wide : 0 < outbound)
    (settled : IsSettled s t) :
    OnSchedule s t log := by
  obtain ⟨asked, out, said⟩ := said_of_run (run_of_logged run) fits
  exact (punctual_of_run run fits wide List.prefix_rfl).onSchedule settled said fits
    (capacity_of_run (run_of_logged run) fits ▸ wide)

/-- What is logged is logged in hindsight, and no lookup oversleeps. -/
theorem logged_inHindsight {p : Talk × Log} (h : IsInTime s p.1) :
    es.foldlM (logged? (s.inHindsight [])) p = es.foldlM (logged? s) p := by
  induction es generalizing p with
  | nil => rfl
  | cons e es ih =>
      rw [List.foldlM_cons, List.foldlM_cons, logged?, logged?,
        h.clocked_inHindsight]
      cases clocked : clocked? s p.1 e with
      | none => rfl
      | some t => exact ih (p := (t, p.2.add p.1 e t)) (h.step clocked)

theorem isInTime_of_run (run :
    es.foldlM (logged? s) (fresh s inbound outbound, .empty) = some (t, log)) :
    IsInTime s t := by
  refine Run.induct (P := fun _ p => IsInTime s p.1)
    (isInTime_fresh s inbound outbound) ?_ run
  rintro es p e p' - inTime step
  obtain ⟨t', clocked, rfl⟩ := Option.map_eq_some_iff.mp step
  exact inTime.step clocked

/-- What is on schedule in hindsight, where no lookup oversleeps,
is on schedule. -/
theorem OnSchedule.of_inHindsight (h : OnSchedule (s.inHindsight []) t log) :
    OnSchedule s t log := by
  obtain ⟨begins, inOrder, firstCome, waits, replies⟩ := h
  rw [s.jobs_inHindsight] at firstCome waits replies
  exact ⟨begins, inOrder, firstCome, waits, replies⟩

/-- On a simulated clock, while the far end reads all replies at once and as long
as they fit into frames, lookups are on schedule whenever a talk has settled, and
a talk settles in no time. -/
theorem lookups_on_schedule
    (run : es.foldlM (logged? s) (fresh s inbound outbound, .empty) = some (t, log))
    (fits : ∀ r ∈ s.replies 0 t.requests, Fits r) (wide : 0 < outbound) :
    (IsSettled s t → OnSchedule s t log) ∧
      ∃ (more : List Event) (t' : Talk) (log' : Log),
        (∀ e ∈ more, e.isInstant = true) ∧
        more.foldlM (logged? s) (t, log) = some (t', log') ∧ IsSettled s t' ∧
        t'.requests = t.requests ∧
        t'.wired.side.now = t.wired.side.now ∧ OnSchedule s t' log' := by
  have foreseen : es.foldlM (logged? (s.inHindsight []))
      (fresh (s.inHindsight []) inbound outbound, .empty) =
      some (t, log) :=
    (logged_inHindsight (isInTime_fresh s inbound outbound)).trans run
  rw [← s.replies_inHindsight] at fits
  refine ⟨fun settled =>
    (onSchedule_of_run foreseen fits wide
      (isSettled_inHindsight.mpr settled)).of_inHindsight, ?_⟩
  obtain ⟨asked, out, said⟩ := said_of_run (run_of_logged foreseen) fits
  obtain ⟨more, t', instant, clocked, settled, same, now⟩ := said.settles fits
  obtain ⟨log', later⟩ := logged_of_run clocked log
  refine ⟨more, t', log', instant, ?_, isSettled_inHindsight.mp settled,
    same, now, ?_⟩
  · exact (logged_inHindsight (isInTime_of_run run)).symm.trans later
  · exact (onSchedule_of_run (Run.append foreseen later)
      (same ▸ fits) wide settled).of_inHindsight

/-- One lookup at a time; process 1 takes longer than the agent waits. -/
def staggered : Setup :=
  .of 1 20 fun _ pid => ⟨some (if pid = 1 then 30 else 5), .ok "app"⟩

/-- Two lookups arrive at once, and a third one while the first still runs. -/
def queueing : List Event :=
  [.write (frames encodeRequest [.lookup 7 1, .lookup 8 2]), .move (.pull 50),
    .move .read, .move .grant, .move .read, .move (.begin 0), .elapse 10,
    .write (frames encodeRequest [.lookup 9 3]), .elapse 10, .move (.finish 0),
    .move (.hand 0), .move .grant, .move (.pull 25), .move .read, .move (.begin 1),
    .move .take, .move (.push 86), .read 86, .move .flush, .elapse 5,
    .move (.finish 1), .move (.hand 1), .move .grant, .move (.begin 2), .move .take,
    .move (.push 41), .read 41, .move .flush, .elapse 5, .move (.finish 2),
    .move (.hand 2), .move .take, .move (.push 41), .read 41, .move .flush]

/-- The lookups begin at 0, 20 and 25. The first is given up when it has run
for 20 ms, and the others have their replies 5 ms after they began, however
long they waited. -/
theorem queueing_on_schedule :
    ∃ t log, queueing.foldlM (logged? staggered) (fresh staggered 200 200, .empty) =
      some (t, log) ∧
      t.wired.side.now = 30 ∧ log.arrivals = [0, 0, 10] ∧
      log.begins = [(0, 0), (20, 1), (25, 2)] ∧
      log.replies.Perm [(20, .lookup (.failed 7 (.timeout 1))),
        (25, .lookup (.found 8 "app")), (30, .lookup (.found 9 "app"))] := by
  have settles : (queueing.foldlM (logged? staggered)
      (fresh staggered 200 200, .empty)).any (fun p =>
        IsSettled staggered p.1 &&
        p.1.requests = [.lookup 7 1, .lookup 8 2, .lookup 9 3] &&
        p.1.wired.side.now = 30 && p.2.arrivals = [0, 0, 10] &&
        p.2.grants = [0, 20, 25] &&
        p.2.begins = [(0, 0), (20, 1), (25, 2)]) = true := by
    decide +kernel
  obtain ⟨⟨t, log⟩, run, settles⟩ := (Option.any_eq_true _ _).mp settles
  simp only [Bool.and_eq_true, decide_eq_true_eq] at settles
  obtain ⟨⟨⟨⟨⟨settled, asked⟩, now⟩, arrivals⟩, grants⟩, begins⟩ := settles
  have fits : ∀ r ∈ staggered.replies 0 t.requests, Fits r := by
    rw [asked]
    decide +kernel
  have replies := ((lookups_on_schedule run fits (by decide)).1 settled).replies
  rw [asked, grants, now] at replies
  exact ⟨t, log, run, now, arrivals, begins, replies⟩

/-! ## Off schedule -/

/-- When the writer has ended, nothing is noted any more of what is written. -/
theorem IsMute.log_of_run (h : IsMute t)
    (run : es.foldlM (logged? s) (t, log) = some (t', log')) :
    log'.replies = log.replies ∧ log.grants <+: log'.grants ∧
    t.requests <+: t'.requests := by
  suffices all : IsMute t' ∧ log'.replies = log.replies ∧
      log.grants <+: log'.grants ∧
      t.requests <+: t'.requests from all.2
  refine Run.induct (P := fun _ p =>
    IsMute p.1 ∧ p.2.replies = log.replies ∧ log.grants <+: p.2.grants ∧
    t.requests <+: p.1.requests) ⟨h, rfl, List.prefix_rfl, List.prefix_rfl⟩ ?_ run
  rintro es ⟨t₁, log₁⟩ e p - ⟨mute, silent, grants, requests⟩ step
  obtain ⟨t₂, clocked, rfl⟩ := Option.map_eq_some_iff.mp step
  obtain ⟨-, step⟩ := clocked?_eq_some.mp clocked
  obtain ⟨mute', same⟩ := mute.step step
  refine ⟨mute', ?_, grants.trans (List.prefix_append _ _),
    requests.trans (requests_step step)⟩
  have answers : t₂.answers = t₁.answers := by
    rw [answers, answers, replies, replies, same]
  simp only [Log.add, answers, List.drop_length, List.map_nil, List.append_nil]
  exact silent

/-- Process 1 has a bundle id that fits into no frame. -/
def lumpy : Setup :=
  .of 2 20 fun _ pid => ⟨some 0, .ok (if pid = 1 then giant 70000 else "app")⟩

instance : lumpy.IsDecided where
  in_time _ _ _ at_once := Option.some.inj at_once ▸ Nat.zero_le _

/-- Two lookups arrive, begin and come to their end at once. -/
def swamped : List Event :=
  [.write (frames encodeRequest [.lookup 1 1, .lookup 2 2]), .move (.pull 50),
    .move .read, .move .grant, .move .read, .move .grant, .move (.begin 0),
    .move (.begin 1), .move (.finish 1), .move (.finish 0)]

theorem lumpy_answer :
    lumpy.answer 1 1 (lumpy.plan 0 1) = .found 1 (giant 70000) := by
  have named : giant 70000 ≠ "" := by
    intro empty
    have length := length_giant 70000
    rw [empty] at length
    cases length
  simp [lumpy, Setup.of, Setup.answer, Plan.answer, Agent.replyOf, named]

/-- Then the reply on process 1 is the first to be queued, and the
writer takes it. -/
theorem swamped_taken :
    ∃ t log, (swamped ++ [Event.move (.hand 0), Event.move .take]).foldlM
        (logged? lumpy) (fresh lumpy 200 200, .empty) = some (t, log) ∧ IsMute t ∧
      t.requests = [.lookup 1 1, .lookup 2 2] ∧ log.arrivals = [0, 0] ∧
      log.grants = [0, 0] ∧
      log.begins = [(0, 0), (0, 1)] ∧ log.replies = [] := by
  have ends : (swamped.foldlM (logged? lumpy)
      (fresh lumpy 200 200, .empty)).any (fun p =>
        (p.1.wired.side.find? 0).any
          (fun l => l.number = 0 && l.id = 1 && l.pid = 1 && !l.isOpen) &&
        p.1.wired.side.writing = .idle && p.1.wired.side.queue.isEmpty &&
        p.1.requests = [.lookup 1 1, .lookup 2 2] && p.2.arrivals = [0, 0] &&
        p.2.grants = [0, 0] &&
        p.2.begins = [(0, 0), (0, 1)] && p.2.replies.isEmpty) = true := by
    decide +kernel
  obtain ⟨⟨t, log⟩, run, ends⟩ := (Option.any_eq_true _ _).mp ends
  simp only [Bool.and_eq_true, decide_eq_true_eq, Option.any_eq_true,
    List.isEmpty_iff, Bool.not_eq_true', Agent.Lookup.isOpen_eq_false_iff] at ends
  obtain ⟨⟨⟨⟨⟨⟨⟨⟨l, found, ⟨⟨number, id⟩, pid⟩, r, stage⟩, free⟩, empty⟩, asked⟩,
    arrivals⟩, grants⟩,
    begins⟩, replies⟩ := ends
  obtain ⟨out, -, ⟨asked', said⟩ | ⟨lost, broken⟩⟩ :=
    course_of_run (run_of_logged run)
  · obtain ⟨held, -⟩ := Agent.find?_eq_some found
    have answer : Reply.lookup r = .lookup (.found 1 (giant 70000)) := by
      rw [said.books.accounts.answered l held r stage, Agent.Lookup.reply, number,
        id, pid, lumpy_answer]
    have hands : t.step? lumpy (.move (.hand 0)) =
        some { t with wired := { t.wired with
        side := { t.wired.side.release 0 with queue := [.lookup r] } } } := by
      obtain ⟨n, i, p, stage'⟩ := l
      cases stage
      simp [step?, AgentEnd.step?, AgentEnd.act?, Agent.step?, found, free, empty,
        lumpy, Setup.of]
    have takes := take_of_long (s := lumpy) (w := { t.wired with
      side := { t.wired.side.release 0 with queue := [.lookup r] } }) free rfl
      (answer ▸ giant_long 1 (by decide))
    have taken := Run.concat (Run.concat run (logged_of_move hands))
      (logged_of_move (Option.map_eq_some_iff.mpr ⟨_, takes, rfl⟩))
    rw [List.append_assoc] at taken
    have silent : t.wired.sending = [] :=
      said.books.silent fun r busy => by simp [free] at busy
    refine ⟨_, _, taken, ⟨said.books.sound, rfl, silent⟩, asked, ?_, ?_, ?_, ?_⟩
    · simp [Log.add, arrivals, requests]
    · simp [Log.add, Log.granted, grants]
    · simp [Log.add, Log.begun, begins]
    · simp [Log.add, replies, answers, Talk.replies, written]
  · rw [broken.mute.gone] at free
    cases free

/-- When the writer takes the reply on process 1, both lookups are off
schedule for good: no reply is ever written, not even the one on process 2,
which would fit. -/
theorem swamped_off_schedule :
    ∃ t log, (swamped ++ [Event.move (.hand 0), Event.move .take]).foldlM
        (logged? lumpy) (fresh lumpy 200 200, .empty) = some (t, log) ∧
      t.requests = [.lookup 1 1, .lookup 2 2] ∧ log.arrivals = [0, 0] ∧
      log.begins = [(0, 0), (0, 1)] ∧
      Fits (.lookup (lumpy.answer 2 2 (lumpy.plan 1 2))) ∧
      ∀ (later : List Event) t' log',
        later.foldlM (logged? lumpy) (t, log) = some (t', log') →
        log'.replies = [] ∧ ¬ OnSchedule lumpy t' log' := by
  obtain ⟨t, log, run, mute, asked, arrivals, grants, begins, replies⟩ :=
    swamped_taken
  refine ⟨t, log, run, asked, arrivals, begins, by decide +kernel, ?_⟩
  intro later t' log' run'
  obtain ⟨silent, more, requests⟩ := mute.log_of_run run'
  rw [replies] at silent
  refine ⟨silent, fun schedule => ?_⟩
  have owed := schedule.replies
  obtain ⟨grants', all⟩ := more
  obtain ⟨requests', sent⟩ := requests
  rw [silent, ← all, grants, ← sent, asked] at owed
  cases owed.symm.eq_nil

end ElementAgent.Talk

import ElementAgent.Proofs.Agent.Timed
import ElementAgent.Proofs.Agent.Turns

/-!
# A log of lookups

What is noted of a talk on a simulated clock: when lookups arrive, are given their
permits and begin, and when their replies are written (`Log`, `logged?`). Main
statement: every run keeps lookups on time, as long as the replies fit into frames
(`punctual_of_run`):

* **permits** are given out first come, first served (`Queued.step`);
* **turns** are taken on time (`timed_step`), and lookups begin with their permits
  (`begun_step`);
* **replies** are written at the time at which they were queued (`Answered.step`).
-/

namespace ElementAgent.Talk

open Agent (Setup Job Timed MayBegin IsFirstCome served pick)
open AgentEnd (Fits)
open Wire (decodeReply)

variable {s : Setup} {t t' : Talk} {e : Event} {es : List Event}
  {asked rs : List Request} {out : List Reply} {inbound outbound : Nat}

/-! ## A log -/

/-- What is noted of a talk. -/
structure Log where
  /-- When lookups arrived. -/
  arrivals : List Nat
  /-- When lookups were given their permits. -/
  grants : List Nat
  /-- Which lookups began, by time and number. -/
  begins : List (Nat × Nat)
  /-- Which lookups were waiting when one behind them began. -/
  overtaken : List Nat
  /-- Which lookups had their replies queued. -/
  left : List Nat
  /-- Which replies to lookups were written, with their times. -/
  replies : List (Nat × Reply)

namespace Log

def empty : Log := ⟨[], [], [], [], [], []⟩

def granted (now : Nat) : Event → List Nat
  | .move .grant => [now]
  | _ => []

def begun (now : Nat) : Event → List (Nat × Nat)
  | .move (.begin n) => [(now, n)]
  | _ => []

def passed (t : Talk) : Event → List Nat
  | .move (.begin n) => t.wired.side.waitingBefore n
  | _ => []

def handed : Event → List Nat
  | .move (.hand n) => [n]
  | _ => []

/-- Notes an event that leads from one talk to another. -/
def add (log : Log) (t : Talk) (e : Event) (t' : Talk) : Log :=
  let now := t.wired.side.now
  { arrivals := log.arrivals ++
    List.replicate (lookupsOf t'.requests - lookupsOf t.requests) now
    grants := log.grants ++ granted now e
    begins := log.begins ++ begun now e
    overtaken := log.overtaken ++ passed t e
    left := log.left ++ handed e
    replies := log.replies ++ (t'.answers.drop t.answers.length).map (now, ·) }

/-- Of what is aside from the turns of lookups nothing is noted but what arrives
and what is written. -/
theorem notes_of_aside (aside : e.isAside = true) (t : Talk) (now : Nat) :
    granted now e = [] ∧ begun now e = [] ∧ passed t e = [] ∧ handed e = [] := by
  cases e with
  | elapse ms => cases aside
  | write | close | read => exact ⟨rfl, rfl, rfl, rfl⟩
  | move m =>
      cases m with
      | grant | begin | finish | hand => cases aside
      | _ => exact ⟨rfl, rfl, rfl, rfl⟩

end Log

/-- One step on a simulated clock with a log. -/
def logged? (s : Setup) (p : Talk × Log) (e : Event) : Option (Talk × Log) :=
  (clocked? s p.1 e).map fun t' => (t', p.2.add p.1 e t')

variable {log log' : Log} {jobs : List Job} {now n : Nat}

theorem run_of_logged {p p' : Talk × Log}
    (run : es.foldlM (logged? s) p = some p') :
    es.foldlM (step? s) p.1 = some p'.1 := by
  induction es generalizing p with
  | nil =>
      cases run
      rfl
  | cons e es ih =>
      obtain ⟨p₁, first, rest⟩ := Option.bind_eq_some_iff.mp run
      obtain ⟨t₁, step, rfl⟩ := Option.map_eq_some_iff.mp first
      rw [List.foldlM_cons, (clocked?_eq_some.mp step).2]
      exact ih rest

theorem logged_of_move {m : AgentEnd.Move} (step : t.step? s (.move m) = some t') :
    logged? s (t, log) (.move m) = some (t', log.add t (.move m) t') := by
  have timely : IsTimely s t (.move m) := trivial
  rw [logged?, clocked?_eq_some.mpr ⟨timely, step⟩]
  rfl

/-- Everything that happens on a simulated clock can be logged. -/
theorem logged_of_run (run : es.foldlM (clocked? s) t = some t') (log : Log) :
    ∃ log', es.foldlM (logged? s) (t, log) = some (t', log') := by
  induction es generalizing t log with
  | nil =>
      cases run
      exact ⟨log, rfl⟩
  | cons e es ih =>
      obtain ⟨t₁, first, rest⟩ := Option.bind_eq_some_iff.mp run
      obtain ⟨log', later⟩ := ih rest (log.add t e t₁)
      refine ⟨log', ?_⟩
      rw [List.foldlM_cons, logged?, first]
      exact later

/-! ## Arrivals and permits -/

/-- Lookups arrive one after the other. -/
structure Arrived (t : Talk) (log : Log) : Prop where
  count : log.arrivals.length = lookupsOf t.requests
  past : ∀ arrival ∈ log.arrivals, arrival ≤ t.wired.side.now

/-- Lookups are given their permits first come, first served. -/
structure Queued (s : Setup) (jobs : List Job) (t : Talk) (log : Log) :
    Prop extends Arrived t log where
  firstCome : IsFirstCome s.limit log.arrivals jobs log.grants
  /-- The next lookup could not have begun before. -/
  waits : ∀ arrival, log.arrivals[log.grants.length]? = some arrival →
    ∀ time < t.wired.side.now,
    ¬ MayBegin s.limit arrival log.grants jobs time

theorem lookupsOf_le_of_step (step : t.step? s e = some t') :
    lookupsOf t.requests ≤ lookupsOf t'.requests := by
  obtain ⟨more, all⟩ := requests_step step
  rw [← all, lookupsOf_append]
  exact Nat.le_add_right _ _

/-- Time does not go back. -/
theorem now_le_of_step (step : t.step? s e = some t') :
    t.wired.side.now ≤ t'.wired.side.now := by
  cases beat_of_step? step with
  | turn turn act => cases turn <;> cases act <;> exact Nat.le_refl _
  | elapse => exact Nat.le_add_right _ _
  | aside _ _ _ now => exact Nat.le_of_eq now.symm

theorem Arrived.step (h : Arrived t log) (step : t.step? s e = some t') :
    Arrived t' (log.add t e t') where
  count := by
    have more := lookupsOf_le_of_step step
    simp only [Log.add, List.length_append, List.length_replicate, h.count]
    omega
  past := by
    intro arrival arrived
    have later := now_le_of_step step
    rcases List.mem_append.mp arrived with before | new
    · exact Nat.le_trans (h.past arrival before) later
    · rwa [List.eq_of_mem_replicate new]

namespace Queued

theorem start (s : Setup) (jobs : List Job) (inbound outbound : Nat) :
    Queued s jobs (fresh s inbound outbound) .empty where
  count := by
    have nothing : (fresh s inbound outbound).requests = [] := Wire.messages_nil
    rw [nothing]
    rfl
  past := by simp [Log.empty]
  firstCome := .nil
  waits := by simp [Log.empty]

/-- The next lookup could not have begun before either if more of
them arrive now. -/
theorem waits_of_arrived (h : Queued s jobs t log) (k : Nat) {arrival : Nat}
    (next : (log.arrivals ++ List.replicate k
      t.wired.side.now)[log.grants.length]? = some arrival) {time : Nat}
    (early : time < t.wired.side.now) :
    ¬ MayBegin s.limit arrival log.grants jobs time := by
  intro may
  rcases Nat.lt_or_ge log.grants.length log.arrivals.length with before | after
  · rw [List.getElem?_append_left before] at next
    exact h.waits arrival next time early may
  · -- it arrives only now
    rw [List.getElem?_append_right after] at next
    have arrived := List.eq_of_mem_replicate (List.mem_of_getElem? next)
    have late := may.arrived
    omega

/-- The next lookup is given its permit, and could not have had it before. -/
theorem grant (h : Queued s jobs t log)
    (timed : Timed s jobs t.wired.side log.grants log.left)
    (said : Said s t asked out) {id : UInt64} {pid : Pid} {free : Nat}
    (holds : t.wired.side.reading = .holding id pid)
    (permit : t.wired.side.free = free + 1) :
    IsFirstCome s.limit log.arrivals jobs (log.grants ++ [t.wired.side.now]) := by
  have room : t.wired.side.lookups.length < s.limit := by
    have permits := said.books.orderly.permits
    omega
  have bound : log.grants.length < log.arrivals.length := by
    obtain ⟨dealt, all, count, -⟩ := said.dealt
    obtain ⟨more, sent⟩ := said.asked_prefix
    rw [h.count, timed.count, ← sent, lookupsOf_append, all, lookupsOf_append,
      count, holds]
    simp [Agent.Reading.holds, lookupsOf, Request.lookups]
    omega
  refine h.firstCome.concat (List.getElem?_eq_getElem bound)
    ⟨⟨?arrived, timed.past, ?idle⟩, ?least⟩
  case arrived => exact h.past _ (List.getElem_mem bound)
  case idle =>
    rw [timed.unfinished (Nat.le_refl _)]
    exact Nat.lt_of_le_of_lt List.countP_le_length room
  case least =>
    intro time may
    by_contra early
    exact h.waits _ (List.getElem?_eq_getElem bound) time
      (Nat.lt_of_not_le early) may

/-- The next lookup may not begin in a talk that has settled, nor until a lookup
comes to its end. -/
theorem not_mayBegin (h : Queued s jobs t log)
    (timed : Timed s jobs t.wired.side log.grants log.left)
    (settled : IsSettled s t) (said : Said s t asked out)
    (fits : ∀ r ∈ s.replies 0 t.requests, Fits r)
    (wide : 0 < t.wired.outbound.capacity) {time : Nat}
    (later : t.wired.side.now ≤ time)
    (due : ∀ l ∈ t.wired.side.lookups, ∀ since, l.stage = .running since →
      time < s.due l since)
    {arrival : Nat} (next : log.arrivals[log.grants.length]? = some arrival) :
    ¬ MayBegin s.limit arrival log.grants jobs time := by
  intro may
  have more : t.wired.side.admitted < lookupsOf t.requests := by
    rw [← timed.count, ← h.count]
    exact (List.getElem?_eq_some_iff.mp next).1
  -- all permits are held, and who holds one is not due
  have full := settled.full said fits wide more
  obtain ⟨-, -, running⟩ := settled.idle said fits wide
  have busy := may.idle
  rw [timed.unfinished later, List.countP_eq_length.mpr ?_, full] at busy
  · exact Nat.lt_irrefl _ busy
  · intro l held
    obtain ⟨since, runs⟩ := running l held
    exact decide_eq_true
      (timed.outcome_of_running held runs ▸ due l held since runs)

theorem step (h : Queued s jobs t log)
    (timed : Timed s jobs t.wired.side log.grants log.left)
    (said : Said s t asked out) (fits : ∀ r ∈ s.replies 0 t.requests, Fits r)
    (wide : 0 < t.wired.outbound.capacity) (timely : IsTimely s t e)
    (step : t.step? s e = some t') :
    Queued s jobs t' (log.add t e t') := by
  refine { toArrived := h.toArrived.step step, firstCome := ?_, waits := ?_ }
  · have same := h.firstCome.arrive
      (List.replicate (lookupsOf t'.requests - lookupsOf t.requests)
        t.wired.side.now)
    cases beat_of_step? step with
    | aside aside =>
        simpa only [Log.add, (Log.notes_of_aside aside t _).1, List.append_nil]
          using same
    | elapse => simpa only [Log.add, Log.granted, List.append_nil] using same
    | turn turn act =>
        cases turn with
        | begin | finish | hand =>
            simpa only [Log.add, Log.granted, List.append_nil] using same
        | grant =>
            cases act with
            | grant holds permit => exact (h.grant timed said holds permit).arrive _
  · intro arrival next time early
    cases beat_of_step? step with
    | aside aside _ _ now =>
        simp only [Log.add, (Log.notes_of_aside aside t _).1,
          List.append_nil] at next ⊢
        exact h.waits_of_arrived _ next (now ▸ early)
    | turn turn act =>
        cases turn with
        | begin | finish | hand =>
            simp only [Log.add, Log.granted, List.append_nil] at next ⊢
            exact h.waits_of_arrived _ next (by cases act <;> exact early)
        | grant =>
            -- who comes next may not begin before the one that begins now
            intro may
            have late := may.inTurn t.wired.side.now
              (List.mem_append_right _ (List.mem_singleton_self _))
            cases act with
            | grant => exact Nat.lt_irrefl _ (Nat.lt_of_le_of_lt late early)
    | @elapse ms =>
        obtain ⟨settled, wait⟩ := timely
        simp only [Log.add, Log.granted, List.append_nil] at next ⊢
        rcases Nat.lt_or_ge time t.wired.side.now with before | after
        · exact h.waits_of_arrived _ next before
        · have same : log.arrivals[log.grants.length]? = some arrival := by
            simpa [requests] using next
          refine h.not_mayBegin timed settled said fits wide after ?_ same
          intro l held since runs
          exact Nat.lt_of_lt_of_le early
            (AgentEnd.le_nextDue_iff.mp wait l held since runs)

end Queued

/-! ## Turns -/

/-- The lookup that the reader holds is the next one. -/
theorem Said.next_job (h : Said s t asked out) {id : UInt64} {pid : Pid}
    (holds : t.wired.side.reading = .holding id pid) :
    (s.jobs 0 t.requests)[t.wired.side.admitted]? =
      some (s.job t.wired.side.admitted id pid) := by
  obtain ⟨dealt, all, count, -⟩ := h.dealt
  obtain ⟨more, sent⟩ := h.asked_prefix
  have whole : t.requests = dealt ++ .lookup id pid :: more := by
    rw [← sent, all, holds, Agent.Reading.holds, List.append_assoc,
      List.singleton_append]
  rw [← count, whole]
  exact s.getElem?_jobs dealt more id pid

theorem timed_step (h : Timed s jobs t.wired.side log.grants log.left)
    (said : Said s t asked out) (fits : ∀ r ∈ s.replies 0 t.requests, Fits r)
    (wide : 0 < t.wired.outbound.capacity)
    (among : s.jobs 0 t.requests <+: jobs) (timely : IsTimely s t e)
    (step : t.step? s e = some t') :
    Timed s jobs t'.wired.side (log.add t e t').grants (log.add t e t').left := by
  have o := said.books.orderly
  cases beat_of_step? step with
  | aside aside lookups admitted now =>
      obtain ⟨granted, -, -, handed⟩ := Log.notes_of_aside aside t t.wired.side.now
      simp only [Log.add, granted, handed, List.append_nil]
      exact h.keep lookups admitted now
  | @elapse ms =>
      obtain ⟨settled, wait⟩ := timely
      simp only [Log.add, Log.granted, Log.handed, List.append_nil]
      refine h.elapse fun l held => ?_
      obtain ⟨since, runs⟩ := (settled.idle said fits wide).2.2 l held
      exact ⟨since, runs, AgentEnd.le_nextDue_iff.mp wait l held since runs⟩
  | turn turn act =>
      cases turn with
      | grant =>
          cases act with
          | grant holds permit =>
              simp only [Log.add, Log.granted, Log.handed, List.append_nil]
              obtain ⟨bound, next⟩ :=
                List.getElem?_eq_some_iff.mp (said.next_job holds)
              exact h.grant (next ▸ List.prefix_iff_getElem?.mp among _ bound)
      | begin =>
          cases act with
          | begin held waits =>
              simp only [Log.add, Log.granted, Log.handed, List.append_nil]
              -- time does not pass while it waits, so it has its permit from now
              have moved :=
                h.setStage o held (.running t.wired.side.now) fun b timely => by
                rw [waits] at timely
                exact ⟨timely, Nat.le_add_right _ _⟩
              exact moved.keep rfl rfl rfl
      | finish =>
          cases act with
          | @finish l since held runs due =>
              simp only [Log.add, Log.granted, Log.handed, List.append_nil]
              -- it is due, and time has not passed beyond that
              refine h.setStage o held _ fun b timely => ?_
              rw [runs] at timely
              rw [timely.1]
              exact Nat.le_antisymm due timely.2
      | hand =>
          cases act with
          | hand held done | handLate held done =>
              simp only [Log.add, Log.granted, Log.handed, List.append_nil]
              exact (h.release o held done).keep rfl rfl rfl

theorem begun_step
    (h : Agent.Begun t.wired.side log.grants log.begins log.overtaken)
    (count : log.grants.length = t.wired.side.admitted) (said : Said s t asked out)
    (fits : ∀ r ∈ s.replies 0 t.requests, Fits r)
    (wide : 0 < t.wired.outbound.capacity) (timely : IsTimely s t e)
    (step : t.step? s e = some t') :
    Agent.Begun t'.wired.side (log.add t e t').grants (log.add t e t').begins
      (log.add t e t').overtaken := by
  have o := said.books.orderly
  cases beat_of_step? step with
  | aside aside lookups _ now =>
      obtain ⟨granted, begun, passed, -⟩ :=
        Log.notes_of_aside aside t t.wired.side.now
      simp only [Log.add, granted, begun, passed, List.append_nil]
      exact h.keep lookups now
  | @elapse ms =>
      simp only [Log.add, Log.granted, Log.begun, Log.passed, List.append_nil]
      exact h.elapse ms (timely.1.idle said fits wide).2.2
  | turn turn act =>
      cases turn with
      | grant =>
          cases act with
          | grant =>
              simp only [Log.add, Log.granted, Log.begun, Log.passed,
                List.append_nil]
              exact h.grant count
      | begin =>
          cases act with
          | begin held waits =>
              simp only [Log.add, Log.granted, Log.begun, Log.passed,
                List.append_nil]
              exact (h.begin o held waits).keep rfl rfl
      | finish =>
          cases act with
          | finish held runs _ =>
              simp only [Log.add, Log.granted, Log.begun, Log.passed,
                List.append_nil]
              exact h.finish o held runs _
      | hand =>
          cases act with
          | hand held done | handLate held done =>
              simp only [Log.add, Log.granted, Log.begun, Log.passed,
                List.append_nil]
              exact (h.release o held done).keep rfl rfl

/-! ## Replies -/

/-- Every reply to a lookup is queued when the lookup comes to its end, and is
written at that time. -/
structure Answered (t : Talk) (jobs : List Job) (log : Log) : Prop where
  produced : t.produced = (pick (served log.grants jobs) log.left).map Prod.snd
  told : log.replies.map Prod.snd = t.answers
  /-- What was queued and is not written yet was queued just now. -/
  prompt : ∃ rest, pick (served log.grants jobs) log.left = log.replies ++ rest ∧
    ∀ x ∈ rest, x.1 = t.wired.side.now

namespace Answered

theorem start (s : Setup) (jobs : List Job) (inbound outbound : Nat) :
    Answered (fresh s inbound outbound) jobs .empty where
  produced := by
    show (Wire.messages decodeReply [] ++ []).filter _ = []
    rw [Wire.messages_nil]
    rfl
  told := by
    show [] = (Wire.messages decodeReply []).filter _
    rw [Wire.messages_nil]
    rfl
  prompt := ⟨[], rfl, by simp⟩

/-- Where all that was queued has been written, it has been noted. -/
theorem pick_eq (h : Answered t jobs log) (all : t.produced = t.answers) :
    pick (served log.grants jobs) log.left = log.replies := by
  obtain ⟨rest, queued, -⟩ := h.prompt
  have same := h.produced
  rw [all, ← h.told, queued, List.map_append] at same
  have nothing : rest = [] := by simpa using same
  rw [queued, nothing, List.append_nil]

/-- What is written now was queued now. -/
theorem told_now {now : Nat} {told rest : List (Nat × Reply)} {answers : List Reply}
    (queued : answers <+: (told ++ rest).map Prod.snd)
    (before : told.map Prod.snd <+: answers) (prompt : ∀ x ∈ rest, x.1 = now) :
    (told ++ (answers.drop (told.map Prod.snd).length).map (now, ·)).map Prod.snd =
        answers ∧
      ∃ rest', told ++ rest = told ++
        (answers.drop (told.map Prod.snd).length).map (now, ·) ++ rest' ∧
        ∀ x ∈ rest', x.1 = now := by
  obtain ⟨new, rfl⟩ := before
  rw [List.drop_left]
  obtain ⟨later, all⟩ := queued
  rw [List.map_append, List.append_assoc, List.append_cancel_left_eq] at all
  refine ⟨by simp, later.map (now, ·), ?_, by simp⟩
  have same : rest = (rest.map Prod.snd).map (now, ·) := by
    rw [List.map_map]
    refine (List.map_id rest).symm.trans (List.map_congr_left fun x listed => ?_)
    rw [Function.comp_apply, ← prompt x listed]
    rfl
  rw [List.append_assoc, ← List.map_append, all, ← same]

/-- Some replies may be queued for lookups that are due now, and some
may be written. -/
theorem next (h : Answered t jobs log) (now : t'.wired.side.now = t.wired.side.now)
    (grows : t.answers <+: t'.answers) (new : List (Nat × Reply))
    (due : ∀ x ∈ new, x.1 = t.wired.side.now)
    (left : pick (served (log.add t e t').grants jobs) (log.add t e t').left =
      pick (served log.grants jobs) log.left ++ new)
    (produced : t'.produced = t.produced ++ new.map Prod.snd) :
    Answered t' jobs (log.add t e t') := by
  obtain ⟨rest, queued, prompt⟩ := h.prompt
  have all : t'.produced = (log.replies ++ (rest ++ new)).map Prod.snd := by
    rw [produced, h.produced, queued, ← List.map_append, List.append_assoc]
  have told := h.told
  obtain ⟨same, rest', parts, prompt'⟩ :=
    told_now (all ▸ t'.answers_prefix) (told ▸ grows)
    fun x listed => (List.mem_append.mp listed).elim (prompt x) (due x)
  rw [told] at same parts
  refine ⟨?_, same, rest', ?_, now ▸ prompt'⟩
  · rw [left, all, queued, List.append_assoc]
  · rw [left, queued, List.append_assoc]
    exact parts

/-- Time passes when all that was queued has been written. -/
theorem elapse (h : Answered t jobs log) (all : t.produced = t.answers) {ms : Nat}
    (produced : t'.produced = t.produced) (answers : t'.answers = t.answers) :
    Answered t' jobs (log.add t (.elapse ms) t') := by
  have silent : (log.add t (.elapse ms) t').replies = log.replies := by
    simp only [Log.add, answers, List.drop_length, List.map_nil, List.append_nil]
  have same : pick (served (log.add t (.elapse ms) t').grants jobs)
      (log.add t (.elapse ms) t').left =
      pick (served log.grants jobs) log.left := by
    simp only [Log.add, Log.granted, Log.handed, List.append_nil]
  refine ⟨?_, ?_, [], ?_, by simp⟩
  · rw [produced, same, h.produced]
  · rw [silent, answers, h.told]
  · rw [same, silent, h.pick_eq all, List.append_nil]

theorem step (h : Answered t jobs log)
    (timed : Timed s jobs t.wired.side log.grants log.left)
    (timed' : Timed s jobs t'.wired.side (log.add t e t').grants
      (log.add t e t').left)
    (said : Said s t asked out) (fits : ∀ r ∈ s.replies 0 t.requests, Fits r)
    (wide : 0 < t.wired.outbound.capacity) (timely : IsTimely s t e)
    (step : t.step? s e = some t') :
    Answered t' jobs (log.add t e t') := by
  have grows := answers_step said.books.sound step
  cases beat_of_step? step with
  | aside aside lookups _ now =>
      obtain ⟨granted, -, -, handed⟩ := Log.notes_of_aside aside t t.wired.side.now
      refine h.next now grows [] (by simp) ?_ ?_
      · simp only [Log.add, granted, handed, List.append_nil]
      · rw [said.produced_aside fits step aside lookups, List.map_nil,
          List.append_nil]
  | @elapse ms =>
      exact h.elapse (timely.1.produced_eq said fits wide) rfl rfl
  | turn turn act =>
      cases turn with
      | grant =>
          cases act with
          | grant holds permit =>
              have more := timed'.enough
              simp only [Log.add, Log.granted, List.length_append,
                List.length_singleton] at more
              refine h.next rfl grows [] (by simp) ?_ (List.append_nil _).symm
              simp only [Log.add, Log.granted, Log.handed, List.append_nil]
              exact timed.pick_concat more _
      | begin | finish =>
          cases act
          refine h.next rfl grows [] (by simp) ?_ (List.append_nil _).symm
          simp only [Log.add, Log.granted, Log.handed, List.append_nil]
      | hand =>
          cases act with
          | handLate held _ gone =>
              -- the writer does not go before the lookups
              rw [(said.books.accounts.last gone).2.1] at held
              cases held
          | @hand l r held done _ _ =>
              have answer := said.books.accounts.answered l held r done
              have outcome := timed.outcome_of_answered held done answer
              refine h.next rfl grows [(t.wired.side.now, .lookup r)]
                (by simp) ?_ ?_
              · simp only [Log.add, Log.granted, Log.handed, List.append_nil]
                rw [← outcome, pick, List.filterMap_append, List.filterMap_cons,
                  timed.getElem?_outcome held]
                rfl
              · simp [Talk.produced, Talk.written, Reply.isReport]

end Answered

/-! ## The course of a talk on a simulated clock -/

/-- Lookups are on time, for requests that are among `rs`. -/
structure Punctual (s : Setup) (rs : List Request) (t : Talk)
    (log : Log) : Prop where
  timed : Timed s (s.jobs 0 rs) t.wired.side log.grants log.left
  queued : Queued s (s.jobs 0 rs) t log
  begun : Agent.Begun t.wired.side log.grants log.begins log.overtaken
  answered : Answered t (s.jobs 0 rs) log

theorem Punctual.start (s : Setup) (rs : List Request) (inbound outbound : Nat) :
    Punctual s rs (fresh s inbound outbound) .empty where
  timed := .start s _
  queued := .start s _ inbound outbound
  begun := .start s
  answered := .start s _ inbound outbound

theorem Punctual.step (h : Punctual s rs t log) (said : Said s t asked out)
    (fits : ∀ r ∈ s.replies 0 t.requests, Fits r)
    (wide : 0 < t.wired.outbound.capacity) (among : t.requests <+: rs)
    (timely : IsTimely s t e)
    (step : t.step? s e = some t') :
    Punctual s rs t' (log.add t e t') := by
  have jobs : s.jobs 0 t.requests <+: s.jobs 0 rs := by
    obtain ⟨more, all⟩ := among
    rw [← all, s.jobs_append]
    exact List.prefix_append _ _
  have timed := timed_step h.timed said fits wide jobs timely step
  exact {
    timed
    queued := h.queued.step h.timed said fits wide timely step
    begun := begun_step h.begun h.timed.count said fits wide timely step
    answered := h.answered.step h.timed timed said fits wide timely step }

/-- In a decided setup, on a simulated clock, lookups are always on time, as long
as the replies fit into frames. -/
theorem punctual_of_run [s.IsDecided]
    (run : es.foldlM (logged? s) (fresh s inbound outbound, .empty) = some (t, log))
    (fits : ∀ r ∈ s.replies 0 rs, Fits r) (wide : 0 < outbound)
    (among : t.requests <+: rs) :
    Punctual s rs t log := by
  -- along the run, with the requests of its end fixed: what a lookup is about is
  -- read off them
  revert among
  refine Run.induct (P := fun _ p => p.1.requests <+: rs → Punctual s rs p.1 p.2)
    (fun _ => .start s rs inbound outbound) ?_ run
  rintro es ⟨t, log⟩ e p' run ih step among
  obtain ⟨t', clocked, rfl⟩ := Option.map_eq_some_iff.mp step
  obtain ⟨timely, step⟩ := clocked?_eq_some.mp clocked
  have earlier : t.requests <+: rs := (requests_step step).trans among
  have fits' := fits_of_prefix earlier fits
  obtain ⟨asked, out, said⟩ := said_of_run (run_of_logged run) fits'
  exact (ih earlier).step said fits'
    (capacity_of_run (run_of_logged run) fits' ▸ wide) earlier timely step

end ElementAgent.Talk

import ElementAgent.Proofs.Agent.HealthChecks

/-!
# A simulated clock

On a simulated clock time passes only when nothing else is left to happen, and no
further than to the next answer that is due. Main statements:

* **scheduler**: the moves that it tries are enough, so that it stops only where
  no move is open (`AgentEnd.next_eq_none_iff`);
* **time**: a talk has settled when no task can move and the far end has read all
  replies (`IsSettled`), and time passes only then (`clocked?`);
* **progress**: whatever has happened so far, a talk settles in no time
  (`Said.settles`).
-/

namespace ElementAgent

namespace AgentEnd

open Agent (Setup Lookup)

variable {s : Setup} {w w' : AgentEnd} {m : Move} {n x : Nat}

/-! ## The scheduler -/

/-- Where some bytes can be read, all of them can. -/
theorem pull_all (h : w.step? s (.pull n) = some w') :
    w.step? s (.pull w.inbound.bytes.length) ≠ none := by
  simp only [step?, Wired.pull?, Pipe.take?] at h ⊢
  split_ifs at h with ended zero enough
  · have some : w.inbound.bytes.length ≠ 0 := by omega
    simp [ended, some]
  · cases h

/-- Where some bytes can be written, as many as there is room for can. -/
theorem push_all (h : w.step? s (.push n) = some w') :
    w.step? s (.push (min w.sending.length w.outbound.room)) ≠ none := by
  simp only [step?, Wired.push?, Pipe.put?, List.length_take] at h ⊢
  split_ifs at h with little room
  · have enough : ¬ (min w.sending.length w.outbound.room = 0 ∨
        w.sending.length < min w.sending.length w.outbound.room) := by omega
    have fits : min (min w.sending.length w.outbound.room) w.sending.length ≤
        w.outbound.room := by
      omega
    rw [if_neg enough, if_pos ⟨room.1, fits⟩]
    exact Option.some_ne_none _
  · cases h

/-- A move of which there is one for all bytes or for each lookup is
tried if it is open. -/
theorem mem_moves (h : w.step? s m = some w')
    (whole : ∀ n, m ≠ .pull n ∧ m ≠ .push n) : m ∈ w.moves := by
  simp only [moves, List.mem_append, List.mem_filterMap]
  cases m with
  | pull n => exact absurd rfl (whole n).1
  | push n => exact absurd rfl (whole n).2
  | begin number =>
      obtain ⟨a, act, -⟩ := act?_eq_some h
      cases Agent.step_of_step? act with
      | @begin l _ held waits =>
          exact .inl (.inr ⟨l, held, by simp [starting, waits]⟩)
  | finish number =>
      obtain ⟨a, act, -⟩ := act?_eq_some h
      cases Agent.step_of_step? act with
      | @finish l _ held runs _ =>
          exact .inl (.inl (.inl ⟨l, held, by simp [ongoing, runs]⟩))
  | hand number =>
      obtain ⟨a, act, -⟩ := act?_eq_some h
      cases Agent.step_of_step? act with
      | @hand l _ held done _ _ | @handLate l _ held done _ =>
          exact .inl (.inl (.inl ⟨l, held, by simp [ongoing, done]⟩))
  | read | grant | report | take | fail | flush | writerDone | release => simp

/-- The scheduler stops only where no move is open. -/
theorem next_eq_none_iff : w.next s = none ↔ ∀ m, w.step? s m = none := by
  rw [next, List.findSome?_eq_none_iff]
  refine ⟨fun stuck m => ?_, fun stuck m _ => stuck m⟩
  by_contra moves
  obtain ⟨w', moves⟩ := Option.ne_none_iff_exists'.mp moves
  by_cases whole : ∀ n, m ≠ .pull n ∧ m ≠ .push n
  · rw [stuck m (mem_moves moves whole)] at moves
    cases moves
  · simp only [not_forall, not_and_or, not_not] at whole
    obtain ⟨n, rfl | rfl⟩ := whole
    · exact pull_all moves (stuck _ (by simp [AgentEnd.moves]))
    · exact push_all moves (stuck _ (by simp [AgentEnd.moves]))

/-- No answer is due before the next one. -/
theorem le_nextDue_iff {a : Agent} : (∀ due ∈ nextDue s a, x ≤ due) ↔
    ∀ l ∈ a.lookups, ∀ since, l.stage = .running since → x ≤ s.due l since := by
  have least (dues : List Nat) : (∀ due ∈ dues.min?, x ≤ due) ↔
      ∀ due ∈ dues, x ≤ due := by
    cases first : dues.min? with
    | none => simp [List.min?_eq_none_iff.mp first]
    | some due => simpa using List.le_min?_iff first
  rw [nextDue, least]
  simp only [List.mem_filterMap]
  constructor
  · intro later l held since runs
    exact later _ ⟨l, held, by rw [runs]⟩
  · rintro later due ⟨l, held, runs⟩
    split at runs
    case h_1 since stage =>
        cases runs
        exact later l held since stage
    case h_2 => cases runs

end AgentEnd

namespace Talk

open Agent (Setup)
open AgentEnd (Fits)

variable {s : Setup} {t t' : Talk} {e : Event} {es : List Event}
  {asked : List Request} {out : List Reply}

/-! ## Time -/

/-- Nothing is left to happen but that time passes or that the far end writes. -/
structure IsSettled (s : Setup) (t : Talk) : Prop where
  stands : ∀ m, t.wired.step? s m = none
  heard : t.wired.outbound.bytes = []

theorem isSettled_iff :
    IsSettled s t ↔ AgentEnd.next s t.wired = none ∧
    t.wired.outbound.bytes = [] := by
  rw [AgentEnd.next_eq_none_iff]
  exact ⟨fun settled => ⟨settled.stands, settled.heard⟩,
    fun ⟨stands, heard⟩ => ⟨stands, heard⟩⟩

instance : Decidable (IsSettled s t) :=
  decidable_of_iff ((AgentEnd.next s t.wired).isNone = true ∧
    t.wired.outbound.bytes.isEmpty = true)
    (by rw [isSettled_iff, Option.isNone_iff_eq_none, List.isEmpty_iff])

/-- What has settled has settled in hindsight. -/
theorem isSettled_inHindsight {late : List Nat} :
    IsSettled (s.inHindsight late) t ↔ IsSettled s t :=
  ⟨fun ⟨stands, heard⟩ =>
    ⟨fun m => AgentEnd.step?_inHindsight_eq_none.mp (stands m), heard⟩,
    fun ⟨stands, heard⟩ =>
      ⟨fun m => AgentEnd.step?_inHindsight_eq_none.mpr (stands m), heard⟩⟩

/-- The event takes its time: if time passes then in a talk that has settled, and
no further than to the next answer that is due. -/
def IsTimely (s : Setup) (t : Talk) : Event → Prop
  | .elapse ms =>
      IsSettled s t ∧
      ∀ due ∈ AgentEnd.nextDue s t.wired.side, t.wired.side.now + ms ≤ due
  | .move _ | .write _ | .close | .read _ => True

instance : Decidable (IsTimely s t e) :=
  match e with
  | .elapse ms =>
    decidable_of_iff (IsSettled s t ∧
        ((AgentEnd.nextDue s t.wired.side).all fun due =>
          t.wired.side.now + ms ≤ due) = true)
      (by simp [IsTimely, Option.all_eq_true])
  | .move _ | .write _ | .close | .read _ => .isTrue trivial

/-- One step on a simulated clock. -/
def clocked? (s : Setup) (t : Talk) (e : Event) : Option Talk :=
  if IsTimely s t e then t.step? s e else none

theorem clocked?_eq_some :
    clocked? s t e = some t' ↔ IsTimely s t e ∧ t.step? s e = some t' := by
  rw [clocked?]
  split_ifs with timely
  · simp [timely]
  · simp [timely]

/-- What takes no time can happen on a simulated clock. -/
theorem clocked_of_run (instant : ∀ e ∈ es, e.isInstant = true)
    (run : es.foldlM (step? s) t = some t') :
    es.foldlM (clocked? s) t = some t' := by
  induction es generalizing t with
  | nil => exact run
  | cons e es ih =>
      obtain ⟨t₁, first, rest⟩ := Option.bind_eq_some_iff.mp run
      obtain ⟨now, later⟩ := List.forall_mem_cons.mp instant
      have timely : IsTimely s t e := by
        cases e with
        | elapse ms => cases now
        | move m | write bs | close | read n => trivial
      rw [List.foldlM_cons, clocked?_eq_some.mpr ⟨timely, first⟩]
      exact ih later rest

/-! ## A talk that has settled -/

namespace IsSettled

/-- A talk that has settled is quiet. -/
theorem quiet (settled : IsSettled s t) : IsQuiet s t :=
  ⟨fun m _ => settled.stands m, settled.heard⟩

/-- Everything was written, and all lookups run. -/
theorem idle (settled : IsSettled s t) (said : Said s t asked out)
    (fits : ∀ r ∈ s.replies 0 t.requests, Fits r)
    (wide : 0 < t.wired.outbound.capacity) :
    t.wired.sending = [] ∧ t.wired.side.queue = [] ∧
      ∀ l ∈ t.wired.side.lookups, ∃ since, l.stage = .running since := by
  obtain ⟨still, heard⟩ := settled.quiet
  obtain ⟨sent, empty⟩ :=
    still.written said.books (said.queue_fits fits) said.listens wide heard
  exact ⟨sent, empty, fun l held => still.running said.books empty held⟩

/-- No answer is due. -/
theorem due (settled : IsSettled s t) (o : Agent.Orderly s t.wired.side)
    {l : Agent.Lookup} (held : l ∈ t.wired.side.lookups) {since : Nat}
    (runs : l.stage = .running since) :
    t.wired.side.now < s.due l since := by
  by_contra past
  have stuck := settled.stands (.finish l.number)
  simp only [AgentEnd.step?, AgentEnd.act?, Agent.step?,
    Agent.find?_of_mem o held, runs, if_pos (Nat.le_of_not_lt past)] at stuck
  cases stuck

/-- A lookup that has no permit although it has arrived waits while all
permits are held. -/
theorem full (settled : IsSettled s t) (said : Said s t asked out)
    (fits : ∀ r ∈ s.replies 0 t.requests, Fits r)
    (wide : 0 < t.wired.outbound.capacity)
    (more : t.wired.side.admitted < lookupsOf t.requests) :
    t.wired.side.lookups.length = s.limit := by
  obtain ⟨-, empty, -⟩ := settled.idle said fits wide
  obtain ⟨dealt, all, count, -⟩ := said.dealt
  have permits := said.books.orderly.permits
  rcases settled.quiet.still.reading empty
    with ready | ended | ⟨id, pid, -, none_free⟩
  · have requests := said.requests_of_ready settled.quiet.still ready
    rw [all, ready, Agent.Reading.holds, List.append_nil] at requests
    rw [requests, count] at more
    exact absurd more (Nat.lt_irrefl _)
  · have requests := said.requests_of_ended ended
    rw [all, ended, Agent.Reading.holds, List.append_nil] at requests
    rw [requests, count] at more
    exact absurd more (Nat.lt_irrefl _)
  · omega

end IsSettled

/-! ## It always settles -/

/-- As long as a talk has not settled something can happen in no time. -/
theorem exists_instant (loud : ¬ IsSettled s t) :
    ∃ e t', e.isInstant = true ∧ e ≠ .read 0 ∧ t.step? s e = some t' := by
  by_cases quiet : IsQuiet s t
  · have moves : ¬ ∀ m, t.wired.step? s m = none :=
      fun stands => loud ⟨stands, quiet.heard⟩
    simp only [not_forall] at moves
    obtain ⟨m, moves⟩ := moves
    obtain ⟨w, moves⟩ := Option.ne_none_iff_exists'.mp moves
    exact ⟨.move m, { t with wired := w }, rfl, Event.noConfusion,
      by simp [step?, moves]⟩
  · obtain ⟨e, t', prompt, reads, step⟩ := exists_prompt quiet
    exact ⟨e, t', Event.isInstant_of_isPrompt prompt, reads, step⟩

/-- A talk settles in no time. -/
theorem Said.settles [s.IsDecided] (h : Said s t asked out)
    (fits : ∀ r ∈ s.replies 0 t.requests, Fits r) :
    ∃ (more : List Event) (t' : Talk), (∀ e ∈ more, e.isInstant = true) ∧
      more.foldlM (clocked? s) t = some t' ∧ IsSettled s t' ∧
      t'.requests = t.requests ∧
      t'.wired.side.now = t.wired.side.now := by
  obtain ⟨more, t', instant, run, settled, same, now⟩ :=
    h.comes_to (fun _ instant => instant) (fun _ => exists_instant) fits
  exact ⟨more, t', instant, clocked_of_run instant run, settled, same, now⟩

end Talk

end ElementAgent

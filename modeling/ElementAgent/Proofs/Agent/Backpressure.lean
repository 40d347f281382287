import ElementAgent.Proofs.Agent.Late

/-!
# How much an agent takes on

An agent reads no further than it can keep in hand: a lookup holds its permit
until its reply is in the queue or lost, and the queue has as many places as there
are permits. Main statements:

* **writer**: what leaves the reader, the lookups and the queue is written, or is
  lost, or is being written (`writer_step`), so that every reply that is owed is
  written, lost or outstanding (`outstanding_of_run`), whether writes fail or not;
* **places**: the queue is never longer than it has places (`queue_le_of_run`),
  and with the permits this bounds what is outstanding (`outstanding_bounded`).
-/

namespace ElementAgent.Agent

variable {s : Setup} {a a' : Agent} {e : Event} {es : List Event}

/-- The reply that is being written. -/
def Writing.holds : Writing → List Reply
  | .busy r => [r]
  | .idle | .ended => []

/-- What has been written by the end of an event. -/
def written (a : Agent) : Event → List Reply
  | .wrote => a.writing.holds
  | _ => []

/-- What an event loses: a failed write loses the reply and all that waits behind
it, and what comes after the writer is gone is lost as well. -/
def discarded (a : Agent) : Event → List Reply
  | .writeFailed => a.writing.holds ++ a.queue
  | e => a.late e

/-- The replies that are owed for what was read, and are neither
written nor lost. -/
def outstanding (s : Setup) (a : Agent) : List Reply :=
  a.writing.holds ++ a.queue ++ a.lookups.map (Lookup.reply s) ++
    a.reading.holds.map (s.reply a.admitted)

/-- What is written in a run. -/
def writtenIn (s : Setup) (es : List Event) : List Reply :=
  Run.gather (step? s) written (fresh s) es

/-- What is lost in a run. -/
def discardedIn (s : Setup) (es : List Event) : List Reply :=
  Run.gather (step? s) discarded (fresh s) es

/-! ## The writer -/

/-- What leaves for the writer is written or lost, or is being written. -/
theorem writer_step (step : Step s a e a') :
    (a.written e ++ a.discarded e ++ a'.writing.holds).Perm
      (a.leaves e ++ a.writing.holds) := by
  cases step with
  | take free next =>
      simp [written, discarded, late, leaves, Writing.holds, free, next]
  | wrote busy => simp [written, discarded, late, leaves, Writing.holds, busy]
  | writeFailed busy =>
      simp only [written, discarded, leaves, Writing.holds, busy, List.nil_append,
        List.append_nil]
      exact List.perm_append_comm
  | writerDone _ _ _ free =>
      simp [written, discarded, late, leaves, Writing.holds, free]
  | _ => simp [written, discarded, leaves]

/-- In a decided setup every reply that is owed is written, lost or
outstanding. -/
theorem outstanding_of_run [s.IsDecided]
    (run : es.foldlM (step? s) (fresh s) = some a) :
    (s.replies 0 (es.flatMap Event.requests)).Perm
      (writtenIn s es ++ discardedIn s es ++ a.outstanding s) := by
  suffices placed : ∃ gone, Places s a (es.flatMap Event.requests) gone ∧
      gone.Perm (writtenIn s es ++ discardedIn s es ++ a.writing.holds) by
    obtain ⟨gone, places, parts⟩ := placed
    have all :=
      places.replies.trans (((parts.append_right _).append_right _).append_right _)
    simpa only [outstanding, List.append_assoc] using all
  refine Run.induct
    (P := fun es a => ∃ gone, Places s a (es.flatMap Event.requests) gone ∧
    gone.Perm (writtenIn s es ++ discardedIn s es ++ a.writing.holds))
      ⟨[], .start s, .refl _⟩ ?_ run
  intro es a e a' run ih step
  obtain ⟨gone, places, parts⟩ := ih
  have act := step_of_step? step
  refine ⟨gone ++ a.leaves e, ?_, ?_⟩
  · rw [List.flatMap_append, List.flatMap_singleton]
    exact places.step (orderly_of_run run) act
  · have moved := writer_step act
    rw [writtenIn, discardedIn, Run.gather_concat run, Run.gather_concat run]
    refine List.perm_iff_count.mpr fun r => ?_
    have before := parts.count_eq r
    have now := moved.count_eq r
    simp only [List.count_append, writtenIn, discardedIn] at before now ⊢
    omega

/-- In hindsight every reply that is owed is written, lost or outstanding. -/
theorem outstanding_hindsight (run : es.foldlM (step? s) (fresh s) = some a) :
    ((hindsight s es).replies 0 (es.flatMap Event.requests)).Perm
      (writtenIn s es ++ discardedIn s es ++ a.outstanding (hindsight s es)) := by
  obtain ⟨foreseen, alike⟩ := run_hindsight run
  have owed := outstanding_of_run foreseen
  rwa [writtenIn, discardedIn, alike, alike] at owed

/-! ## Places -/

/-- Nothing is queued where there is no place. -/
theorem queue_step (step : Step s a e a') (room : a.queue.length ≤ s.limit) :
    a'.queue.length ≤ s.limit := by
  cases step with
  | report _ _ room | hand _ _ _ room =>
      simp only [List.length_append, List.length_singleton]
      omega
  | take _ next =>
      rw [next, List.length_cons] at room
      exact Nat.le_of_succ_le room
  | writeFailed => exact Nat.zero_le _
  | _ => exact room

theorem queue_le_of_run (run : es.foldlM (step? s) (fresh s) = some a) :
    a.queue.length ≤ s.limit :=
  Run.induct (P := fun _ a => a.queue.length ≤ s.limit) (Nat.zero_le _)
    (fun _ _ _ _ _ room step => queue_step (step_of_step? step) room) run

theorem running_le (a : Agent) : a.running ≤ a.lookups.length :=
  List.countP_le_length

theorem Writing.length_holds_le (w : Writing) : w.holds.length ≤ 1 := by
  cases w <;> simp [holds]

theorem Reading.length_holds_le (r : Reading) : r.holds.length ≤ 1 := by
  cases r <;> simp [holds]

/-- The writer and the reader hold one reply each, and the others have places in
the queue or permits. -/
theorem length_outstanding_le (o : Orderly s a) (room : a.queue.length ≤ s.limit)
    (seen : Setup) :
    (a.outstanding seen).length ≤ 2 * s.limit + 2 := by
  have writer := a.writing.length_holds_le
  have reader := a.reading.length_holds_le
  have permits := o.permits
  simp only [outstanding, List.length_append, List.length_map]
  omega

/-- After every run, in which writes may fail, lookups may oversleep, and nobody
need read what is written: every permit is free or held by one lookup, no more
lookups run and no more replies are queued than there are permits, and all replies
that turn out to be owed have been written or lost, except for two for each permit
and two more. -/
theorem outstanding_bounded {n timeout : Nat} {plan : Nat → Pid → Plan}
    (run : (fresh (.of n timeout plan)).run? (.of n timeout plan) es = some a) :
    a.free + a.lookups.length = max n 1 ∧ a.running ≤ max n 1 ∧
      a.queue.length ≤ max n 1 ∧
      ((hindsight (.of n timeout plan) es).replies 0
        (es.flatMap Event.requests)).Perm
        (writtenIn (.of n timeout plan) es ++ discardedIn (.of n timeout plan) es ++
          a.outstanding (hindsight (.of n timeout plan) es)) ∧
      (a.outstanding (hindsight (.of n timeout plan) es)).length ≤
        2 * max n 1 + 2 := by
  rw [run?_eq_foldlM] at run
  have orderly := orderly_of_run run
  have room := queue_le_of_run run
  have permits : a.free + a.lookups.length = max n 1 := orderly.permits
  have running := a.running_le
  exact ⟨permits, by omega, room, outstanding_hindsight run,
    length_outstanding_le orderly room _⟩

/-- A resolver that answers at once. -/
def atOnce (_ : Nat) (_ : Pid) : Plan := ⟨some 0, .ok "app"⟩

/-- Four lookups under a limit of 0, which counts as 1. The writer is kept busy by
the first reply, the queue is filled by the second, the third lookup keeps its
permit, and the fourth stays with the reader. -/
def clogged : List Event :=
  [.receive (.request (.lookup 1 5)), .grant, .begin 0, .finish 0, .hand 0, .take,
    .receive (.request (.lookup 2 5)), .grant, .begin 1, .finish 1, .hand 1,
    .receive (.request (.lookup 3 5)), .grant, .begin 2, .finish 2,
    .receive (.request (.lookup 4 5))]

/-- In that run all four replies are outstanding, which is the
most there can be. -/
theorem clogged_outstanding :
    ∃ a, (fresh (.of 0 9 atOnce)).run? (.of 0 9 atOnce) clogged = some a ∧
      a.free + a.lookups.length = max 0 1 ∧ a.queue.length ≤ max 0 1 ∧
      (a.outstanding (hindsight (.of 0 9 atOnce) clogged)).length = 4 ∧
      (a.outstanding (hindsight (.of 0 9 atOnce) clogged)).length ≤
        2 * max 0 1 + 2 := by
  have run : (fresh (.of 0 9 atOnce)).run? (.of 0 9 atOnce) clogged = some _ := rfl
  obtain ⟨permits, -, room, -, bound⟩ := outstanding_bounded run
  exact ⟨_, run, permits, room, rfl, bound⟩

end ElementAgent.Agent

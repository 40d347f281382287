import ElementAgent.Proofs.Agent.Accounts

/-!
# Reports on health checks

The reader deals with requests one after the other, and puts the report on a
health check into the queue itself. Main statements:

* **within reach**: the reports on the health checks that have no more than a
  number of lookups in front of them (`reportsWithin`), for requests in two parts
  (`reportsWithin_append`);
* **order**: reports are queued in the order of their health checks (`InOrder`),
  and every step but a failed write keeps it so (`InOrder.step`).
-/

namespace ElementAgent

def Reply.isReport : Reply → Bool
  | .health _ => true
  | .lookup _ => false

/-- The report on a request, if it is a health check. -/
def Request.report? : Request → Option Reply
  | .health id => some (.health (.serving id))
  | .lookup .. => none

/-- The reports on the health checks among requests. -/
def reportsOf (rs : List Request) : List Reply := rs.filterMap Request.report?

/-- The reports on the health checks that have at most `k` lookups
in front of them. -/
def reportsWithin : (k : Nat) → List Request → List Reply
  | _, [] => []
  | k, .health id :: rs => .health (.serving id) :: reportsWithin k rs
  | 0, .lookup .. :: _ => []
  | k + 1, .lookup .. :: rs => reportsWithin k rs

/-- Requests with no more than `k` lookups are within reach, and leave the rest of
`k` to others. -/
theorem reportsWithin_append {k : Nat} {rs : List Request} (few : lookupsOf rs ≤ k)
    (more : List Request) :
    reportsWithin k (rs ++ more) =
      reportsOf rs ++ reportsWithin (k - lookupsOf rs) more := by
  induction rs generalizing k with
  | nil => rfl
  | cons r rs ih =>
      cases r with
      | health id =>
          have few' : lookupsOf rs ≤ k := by
            simpa [lookupsOf, Request.lookups] using few
          have count : lookupsOf (.health id :: rs) = lookupsOf rs := by
            simp [lookupsOf, Request.lookups]
          rw [List.cons_append, reportsWithin, ih few', count]
          rfl
      | lookup id pid =>
          have count : lookupsOf (.lookup id pid :: rs) = lookupsOf rs + 1 := by
            simp [lookupsOf, Request.lookups, Nat.add_comm]
          obtain ⟨k, rfl⟩ : ∃ j, k = j + 1 := ⟨k - 1, by omega⟩
          rw [List.cons_append, reportsWithin, ih (by omega), count,
            Nat.add_sub_add_right]
          rfl

/-- All health checks are within reach of the number of lookups. -/
theorem reportsWithin_eq {k : Nat} {rs : List Request} (few : lookupsOf rs ≤ k) :
    reportsWithin k rs = reportsOf rs := by
  have all := reportsWithin_append few []
  rwa [List.append_nil, reportsWithin, List.append_nil] at all

/-- No health check behind one lookup too many is within reach. -/
theorem reportsWithin_lookup (rs more : List Request) (id : UInt64) (pid : Pid) :
    reportsWithin (lookupsOf rs) (rs ++ .lookup id pid :: more) = reportsOf rs := by
  rw [reportsWithin_append (Nat.le_refl _), Nat.sub_self, reportsWithin,
    List.append_nil]

namespace Agent

/-- The reader has dealt with all requests but the one that it holds, and has
queued the reports on the health checks among them in their order. -/
def InOrder (a : Agent) (asked : List Request) (out : List Reply) : Prop :=
  ∃ dealt, asked = dealt ++ a.reading.holds ∧
    (out ++ a.queue).filter Reply.isReport = reportsOf dealt

namespace InOrder

variable {s : Setup} {a a' : Agent} {e : Event} {asked : List Request}
  {out : List Reply}

theorem start (s : Setup) : InOrder (fresh s) [] [] := ⟨[], rfl, rfl⟩

/-- The reader takes a request. -/
theorem read (h : InOrder a asked out) (ready : a.reading = .ready) {r : Request}
    {reading : Reading} (holds : reading.holds = [r]) :
    InOrder { a with reading } (asked ++ [r]) out := by
  obtain ⟨dealt, all, queued⟩ := h
  rw [ready, Reading.holds, List.append_nil] at all
  exact ⟨dealt, by rw [all, holds], queued⟩

/-- Every step but a failed write keeps the order, if the writer does not end
before the reader. -/
theorem step (h : InOrder a asked out) (step : Step s a e a')
    (writes : e ≠ .writeFailed)
    (last : a.writing = .ended → a.reading = .ended) :
    InOrder a' (asked ++ e.requests) (out ++ a.taken e) := by
  obtain ⟨dealt, all, queued⟩ := h
  cases step with
  | lookup ready | health ready =>
      simp only [taken, Event.requests, List.append_nil]
      exact read ⟨dealt, all, queued⟩ ready rfl
  | undecodable ready | endOfStream ready =>
      simp only [taken, Event.requests, List.append_nil]
      rw [ready] at all
      exact ⟨dealt, all, queued⟩
  | grant holds _ =>
      simp only [taken, Event.requests, List.append_nil]
      rw [holds] at all
      refine ⟨_, by simpa [Reading.holds] using all, ?_⟩
      rw [queued]
      simp [reportsOf, Request.report?]
  | report holds _ _ =>
      simp only [taken, Event.requests, List.append_nil]
      rw [holds] at all
      refine ⟨_, by simpa [Reading.holds] using all, ?_⟩
      rw [← List.append_assoc, List.filter_append, queued]
      simp [reportsOf, Request.report?, Reply.isReport]
  | reportLate holds gone =>
      -- the writer does not go before the reader
      have stopped := last gone
      rw [holds] at stopped
      cases stopped
  | hand _ _ _ _ =>
      simp only [taken, Event.requests, List.append_nil]
      refine ⟨dealt, all, ?_⟩
      rw [← List.append_assoc, List.filter_append, queued]
      simp [Reply.isReport]
  | take _ next =>
      simp only [taken, Event.requests, List.append_nil, next]
      refine ⟨dealt, all, ?_⟩
      simpa [next] using queued
  | writeFailed => exact absurd rfl writes
  | begin | finish | handLate | wrote | writerDone | elapse =>
      simp only [taken, Event.requests, List.append_nil]
      exact ⟨dealt, all, queued⟩

end InOrder

end Agent

end ElementAgent

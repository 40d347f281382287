import ElementAgent.Proofs.Call.History

/-!
# Calls on a dead connection

A connection is dead once the reader has ended or a write has failed: the table of
calls is closed. Nobody waits there. Main statements:

* **table**: a closed table is empty, and no operation puts anything into it
  (`CallTable.Sealed`, `Sealed.apply`);
* **cause**: the table is closed by a failed write or the end of the reader, and
  by nothing else (`closed_iff`); as long as it is open and there is an owner, the
  writer takes requests (`serves_of_run`);
* **aftermath**: on a closed connection a call fails at once and no request is
  queued for it (`step?_of_closed`, `backlog_step`).

From these it follows that a connection is dead for good, with every call
completed (`dead_for_good`).
-/

namespace ElementAgent

namespace CallTable

variable {t : CallTable}

/-- Where the table is closed nothing is outstanding. -/
def Sealed (t : CallTable) : Prop := t.closed = true → t.pending = []

theorem Sealed.apply (h : t.Sealed) (op : Operation) : (t.apply op).Sealed := by
  intro closed
  cases op with
  | issue x =>
      have closed : t.closed = true := by simpa [CallTable.apply] using closed
      rw [CallTable.apply, issue, if_pos closed, failAll_pending]
      exact h closed
  | withdraw id =>
      have nothing : t.pending = [] := h (by simpa [CallTable.apply] using closed)
      rw [CallTable.apply, withdraw_of_absent (by simp [nothing])]
      exact nothing
  | receive r =>
      have nothing : t.pending = [] := h (by simpa [CallTable.apply] using closed)
      rw [CallTable.apply, receive_of_foreign (by simp [nothing])]
      exact nothing
  | close why => simp [CallTable.apply, CallTable.close]

theorem Sealed.applyAll (h : t.Sealed) (ops : List Operation) :
    (t.applyAll ops).Sealed := by
  induction ops generalizing t with
  | nil => exact h
  | cons op ops ih => exact ih (h.apply op)

end CallTable

namespace Controller

variable {c c' : Controller} {e : Event} {es : List Event}

/-- The event closes the table. -/
def Event.closes : Event → Bool
  | .writeFailed | .readerDone _ => true
  | .lookup _ | .health | .drop | .take | .wrote | .writerDone | .receive _ => false

/-- Requests that have been queued and not yet been written, oldest first. -/
def backlog (c : Controller) : List Request := c.writing.toList ++ c.queue

/-- The controller after a call that failed at once: nothing is queued and nothing
is outstanding for it. -/
def refuse (c : Controller) (x : Exchange) : Controller :=
  { c with
    calls := { c.calls with
      issued := c.calls.issued + 1
      completed := (c.calls.issued, .failed x (.transport "connection closed")) ::
        c.calls.completed } }

/-! ## One step -/

theorem call_of_closed (closed : c.calls.closed = true) (x : Exchange)
    (request : UInt64 → Request) :
    c.call x request = c.refuse x := by
  rw [call, if_pos closed, CallTable.issue, if_pos closed]
  rfl

/-- On a closed connection an owner's call is open, and fails at once. -/
theorem step?_of_closed (closed : c.calls.closed = true) (kept : c.dropped = false)
    {x : Exchange}
    (calls : e.incident? = some (.call x)) : c.step? e = some (c.refuse x) := by
  cases e with
  | lookup pid | health =>
      cases calls
      rw [step?, if_neg (by simp [kept]), call_of_closed closed]
  | drop | take | wrote | writeFailed | writerDone | receive | readerDone =>
      cases calls

theorem closed_step (step : c.step? e = some c') :
    c'.calls.closed = (c.calls.closed || e.closes) := by
  cases step_of_step? step with
  | lookup | health =>
      rw [call_calls, Event.closes, Bool.or_false]
      simp only [operations.operationsOfCall]
      split_ifs <;> simp [CallTable.applyAll, CallTable.apply]
  | drop | take | wrote | writerDone => simp [Event.closes]
  | writeFailed | readerDone => simp [Event.closes]
  | receive => simp [Event.closes]

/-- Once the table is closed, requests leave the backlog from its front,
and none is added. -/
theorem backlog_step (closed : c.calls.closed = true) (step : c.step? e = some c') :
    c'.backlog <:+ c.backlog := by
  cases step_of_step? step with
  | lookup | health =>
      rw [call_of_closed closed]
      exact List.suffix_refl _
  | drop | writerDone | receive | readerDone => exact List.suffix_refl _
  | take _ free next => simp [backlog, free, next]
  | wrote busy =>
      rw [backlog, backlog, busy]
      exact List.suffix_append _ _
  | writeFailed busy => exact List.nil_suffix

/-! ## Runs -/

theorem sealed_of_run (run : es.foldlM step? fresh = some c) : c.calls.Sealed := by
  refine Run.induct (P := fun _ c => c.calls.Sealed) (fun _ => rfl) ?_ run
  intro es c e c' _ ih step
  rw [step?_calls step]
  exact ih.applyAll _

/-- The table is closed by a failed write or the end of the reader. -/
theorem closed_iff (run : es.foldlM step? fresh = some c) :
    c.calls.closed = true ↔ ∃ e ∈ es, e.closes = true := by
  refine Run.induct
    (P := fun es c => c.calls.closed = true ↔ ∃ e ∈ es, e.closes = true)
    (by simp [fresh, CallTable.empty]) ?_ run
  intro es c e c' _ ih step
  rw [closed_step step, Bool.or_eq_true, ih]
  simp [or_and_right, exists_or]

/-- The reader closes the table when it ends. -/
theorem closed_of_readerGone (run : es.foldlM step? fresh = some c)
    (gone : c.readerGone = true) :
    c.calls.closed = true := by
  revert gone
  refine Run.induct (P := fun _ c => c.readerGone = true → c.calls.closed = true)
    (fun never => by cases never) ?_ run
  intro es c e c' _ ih step gone
  rw [closed_step step, Bool.or_eq_true]
  cases step_of_step? step with
  | readerDone => exact .inr rfl
  | lookup | health =>
      rw [call_readerGone] at gone
      exact .inl (ih gone)
  | drop | take | wrote | writeFailed | writerDone | receive => exact .inl (ih gone)

/-- As long as the table is open and somebody can make calls, the writer
takes requests. -/
theorem serves_of_run (run : es.foldlM step? fresh = some c)
    (open_ : c.calls.closed = false)
    (kept : c.dropped = false) : c.writerGone = false := by
  by_contra gone
  rcases writerStays_of_run run (by simpa using gone) with closed | dropped
  · rw [open_] at closed
    cases closed
  · rw [kept] at dropped
    cases dropped

/-- A table that is closed stays so, and the backlog only shrinks. -/
theorem closed_of_run (closed : c.calls.closed = true)
    (run : es.foldlM step? c = some c') :
    c'.calls.closed = true ∧ c'.backlog <:+ c.backlog := by
  refine Run.induct
    (P := fun _ c' => c'.calls.closed = true ∧ c'.backlog <:+ c.backlog)
    ⟨closed, List.suffix_refl _⟩ ?_ run
  intro _ c₁ e c₂ _ ih step
  obtain ⟨closed, before⟩ := ih
  exact ⟨by rw [closed_step step, closed,
    Bool.true_or], (backlog_step closed step).trans before⟩

/-- The table of calls is closed by a failed write or the end of the reader, and
until then, as long as there is an owner, the writer takes every request. Once
it is closed nothing is outstanding and every call made so far has been
completed, once. It stays closed and empty whatever happens then: every later
call fails at once, and the requests that are still to be written are some that
were queued before. -/
theorem dead_for_good (run : fresh.run? es = some c) :
    (c.calls.closed = true ↔ ∃ e ∈ es, e.closes = true) ∧
      (c.calls.closed = false → c.dropped = false → c.writerGone = false) ∧
      (c.calls.closed = true →
        c.calls.pending = [] ∧
        (c.calls.completed.map (·.1)).Perm (List.range c.calls.issued) ∧
        ∀ later c', c.run? later = some c' →
          c'.calls.closed = true ∧ c'.calls.pending = [] ∧
            c'.backlog <:+ c.backlog ∧
            (c'.dropped = false → ∀ e x, e.incident? = some (.call x) →
              c'.step? e = some (c'.refuse x))) := by
  rw [run?_eq_foldlM] at run
  refine ⟨closed_iff run, serves_of_run run, fun closed => ?_⟩
  have nothing := sealed_of_run run closed
  have numbers := (tidy_of_run run).accounted.numbers
  rw [nothing, List.map_nil, List.nil_append] at numbers
  refine ⟨nothing, numbers, ?_⟩
  intro later c' run'
  rw [run?_eq_foldlM] at run'
  obtain ⟨closed', shorter⟩ := closed_of_run closed run'
  exact ⟨closed', sealed_of_run (Run.append run run') closed', shorter,
    fun kept _ _ => step?_of_closed closed' kept⟩

/-- A run with two calls, of which the second cannot be written. -/
def severed : List Event := [.lookup 7, .health, .take, .wrote, .take, .writeFailed]

/-- After it nothing is outstanding, and a call that is made after a late reply
fails at once. -/
theorem severed_refuses :
    ∃ c c', fresh.run? severed = some c ∧ c.calls.closed = true ∧
    c.calls.pending = [] ∧ c.calls.issued = 2 ∧
    c.run? [.receive (.lookup (.found 0 "a.b")), .lookup 8] = some c' ∧
    c'.calls.pending = [] ∧
    c'.backlog = [] ∧ c'.step? .health = some (c'.refuse .health) := by
  have run : fresh.run? severed = some _ := rfl
  obtain ⟨-, -, dead⟩ := dead_for_good run
  obtain ⟨nothing, -, later⟩ := dead rfl
  obtain ⟨-, nothing', shorter, refuses⟩ :=
    later [.receive (.lookup (.found 0 "a.b")), .lookup 8] _ rfl
  exact ⟨_, _, run, rfl, nothing, rfl, rfl, nothing', List.suffix_nil.mp shorter,
    refuses rfl .health .health rfl⟩

end Controller

end ElementAgent

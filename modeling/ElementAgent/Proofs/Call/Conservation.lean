import ElementAgent.Proofs.Keyed
import ElementAgent.Proofs.Run
import Mathlib.Data.List.Infix
import Mathlib.Data.List.Range

/-!
# Conservation of calls

A call is a number that is handed out once. Main statements:

* **accounting**: the numbers in the table and the numbers that have been
  completed are together the numbers handed out, each of them once
  (`CallTable.Accounted`), and every operation on the table keeps it so
  (`Tidy.apply`), in any order of operations (`Tidy.applyAll`);
* **memory**: no operation forgets a completion or changes it (`completed_apply`);
* **runs**: a controller (whose steps are `Controller.Step`) touches its table by
  operations only (`Controller.step?_calls`), so its runs keep account as well
  (`Controller.tidy_of_run`).

Ids are numbers modulo 2^64. Up to 2^64 calls they are as good as numbers.
-/

namespace ElementAgent

/-- How many calls have ids of their own. -/
def maxCalls : Nat := UInt64.size

theorem toNat_id {n : Nat} (hn : n < maxCalls) : (UInt64.ofNat n).toNat = n := by
  simpa [maxCalls] using hn

theorem id_inj {m n : Nat} (hm : m < maxCalls) (hn : n < maxCalls)
    (same : UInt64.ofNat m = UInt64.ofNat n) : m = n := by
  rw [← toNat_id hm, same, toNat_id hn]

/-- What a call comes to by a reply with its id. -/
def Reply.verdict (r : Reply) (x : Exchange) : Completion :=
  match x, r with
  | .lookup, .lookup r => .lookup r.outcome
  | .health, .health r => .health (.ok r)
  | x, _ => .failed x Violation.wrongKind.error

/-- A lookup's reply that breaks the rules of the exchange. -/
def Reply.isRejected : Reply → Bool
  | .lookup r => r.isViolation
  | .health _ => false

/-- A reply that is of the wrong kind for its call, or is rejected. -/
def Reply.breaksRules (r : Reply) (x : Exchange) : Bool :=
  r.exchange ≠ x || r.isRejected

namespace CallTable

variable {t : CallTable} {c : Call} {id : UInt64} {why : Disconnect}

/-! ## What the operations leave alone -/

/-- Failing calls only adds completions. -/
theorem failAll_eq (cs : List Call) :
    t.failAll why cs =
      { t with
        completed := (cs.map fun c =>
          (c.number, Completion.failed c.exchange why.error)).reverse ++
            t.completed } := by
  induction cs generalizing t with
  | nil => rfl
  | cons c cs ih => simp [failAll, ih, complete]

@[simp] theorem failAll_issued (cs : List Call) :
    (t.failAll why cs).issued = t.issued := by
  rw [failAll_eq]

@[simp] theorem failAll_pending (cs : List Call) :
    (t.failAll why cs).pending = t.pending := by
  rw [failAll_eq]

@[simp] theorem failAll_closed (cs : List Call) :
    (t.failAll why cs).closed = t.closed := by
  rw [failAll_eq]

@[simp] theorem failAll_violations (cs : List Call) :
    (t.failAll why cs).violations = t.violations := by
  rw [failAll_eq]

@[simp] theorem failAll_completed (cs : List Call) :
    (t.failAll why cs).completed =
      (cs.map fun c => (c.number,
        Completion.failed c.exchange why.error)).reverse ++ t.completed := by
  rw [failAll_eq]

/-! ## The operations -/

/-- What can be done to a table. Each operation is done as a whole. -/
inductive Operation where
  | issue (x : Exchange)
  | withdraw (id : UInt64)
  | receive (r : Reply)
  | close (why : Disconnect)

/-- The table after an operation. -/
def apply (t : CallTable) : Operation → CallTable
  | .issue x => t.issue x
  | .withdraw id => t.withdraw id
  | .receive r => t.receive r
  | .close why => t.close why

/-- An entry that is taken out was in the table, and nothing but its
id is looked at. -/
theorem remove_eq_some {t' : CallTable} (h : t.remove id = some (c, t')) :
    (id, c) ∈ t.pending ∧ t' =
      { t with pending := t.pending.filter (·.1 ≠ id) } := by
  obtain ⟨c, found, same⟩ := Option.map_eq_some_iff.mp h
  cases same
  obtain ⟨before, after, split, -⟩ := List.lookup_eq_some_iff.mp found
  exact ⟨by simp [split], rfl⟩

/-- Nothing is taken out exactly if the id is not in the table. -/
theorem remove_eq_none : t.remove id = none ↔ ∀ e ∈ t.pending, e.1 ≠ id := by
  rw [remove, Option.map_eq_none_iff, List.lookup_eq_none_iff]
  constructor
  · intro h e he same
    simpa [same] using h e he
  · intro h e he
    simpa using (h e he).symm

theorem withdraw_of_absent (absent : ∀ e ∈ t.pending, e.1 ≠ id) :
    t.withdraw id = t := by
  rw [withdraw, remove_eq_none.mpr absent]

theorem withdraw_of_remove {t' : CallTable} (found : t.remove id = some (c, t')) :
    t.withdraw id =
      { t with
        pending := t.pending.filter (·.1 ≠ id)
        completed := (c.number, .failed c.exchange Disconnect.closed.error) ::
          t.completed } := by
  obtain ⟨-, rfl⟩ := remove_eq_some found
  rw [withdraw, found]
  rfl

theorem insert_of_absent (absent : ∀ e ∈ t.pending, e.1 ≠ id) :
    t.insert id c = { t with pending := t.pending ++ [(id, c)] } := by
  rw [insert, remove_eq_none.mpr absent]
  rfl

/-- A call that stood under the id is displaced, and failed. -/
theorem insert_of_remove {d : Call} {t' : CallTable}
    (found : t.remove id = some (d, t')) :
    t.insert id c =
      { t with
        pending := t.pending.filter (·.1 ≠ id) ++ [(id, c)]
        completed := (d.number, .failed d.exchange Disconnect.callDropped.error) ::
          t.completed } := by
  obtain ⟨-, rfl⟩ := remove_eq_some found
  rw [insert, found]
  rfl

theorem receive_of_foreign {r : Reply} (foreign : ∀ e ∈ t.pending, e.1 ≠ r.id) :
    t.receive r = t.violate := by
  rw [receive, remove_eq_none.mpr foreign]

/-- Any other reply takes its call out and completes it; it may be a violation
nevertheless. -/
theorem receive_of_remove {r : Reply} {t' : CallTable}
    (found : t.remove r.id = some (c, t')) :
    t.receive r =
      { t with
        pending := t.pending.filter (·.1 ≠ r.id)
        violations := t.violations + if r.breaksRules c.exchange then 1 else 0
        completed := (c.number, r.verdict c.exchange) :: t.completed } := by
  obtain ⟨-, rfl⟩ := remove_eq_some found
  rw [receive, found]
  obtain ⟨n, x⟩ := c
  cases x <;> cases r <;>
    simp [violate, complete, Reply.breaksRules, Reply.exchange, Reply.isRejected,
      Reply.verdict]
  split <;> simp

theorem issue_of_open {x : Exchange} (open_ : t.closed = false)
    (absent : ∀ e ∈ t.pending, e.1 ≠ t.nextId) :
    t.issue x =
      { t with
        issued := t.issued + 1,
        pending := t.pending ++ [(t.nextId, ⟨t.issued, x⟩)] } := by
  rw [issue, if_neg (by simp [open_]),
    insert_of_absent (t := { t with issued := t.issued + 1 }) absent]

/-! ## Accounting -/

/-- Every number handed out is in the table under its own id, or
completed, and only once. -/
structure Accounted (t : CallTable) : Prop where
  numbers :
    (t.pending.map (·.2.number) ++ t.completed.map (·.1)).Perm (List.range t.issued)
  ids : ∀ e ∈ t.pending, e.1 = UInt64.ofNat e.2.number

namespace Accounted

theorem start : CallTable.empty.Accounted := ⟨.refl _, by simp [CallTable.empty]⟩

theorem nodup (h : t.Accounted) :
    (t.pending.map (·.2.number) ++ t.completed.map (·.1)).Nodup :=
  h.numbers.nodup_iff.mpr List.nodup_range

theorem pending_lt (h : t.Accounted) {e : UInt64 × Call} (he : e ∈ t.pending) :
    e.2.number < t.issued := by
  have listed := List.mem_append_left (t.completed.map (·.1))
    (List.mem_map_of_mem (f := (·.2.number)) he)
  simpa using h.numbers.mem_iff.mp listed

theorem completed_lt (h : t.Accounted) {e : Nat × Completion}
    (he : e ∈ t.completed) :
    e.1 < t.issued := by
  have listed := List.mem_append_right (t.pending.map (·.2.number))
    (List.mem_map_of_mem (f := (·.1)) he)
  simpa using h.numbers.mem_iff.mp listed

theorem not_completed (h : t.Accounted) {e : UInt64 × Call} (he : e ∈ t.pending)
    {d : Nat × Completion} (hd : d ∈ t.completed) : d.1 ≠ e.2.number := by
  have apart := (List.nodup_append.mp h.nodup).2.2
  intro same
  exact apart _ (List.mem_map_of_mem he) _ (List.mem_map_of_mem hd) same.symm

/-- No two entries share an id. -/
theorem ids_nodup (h : t.Accounted) (few : t.issued ≤ maxCalls) :
    (t.pending.map (·.1)).Nodup := by
  have numbers : (t.pending.map (·.2.number)).Nodup :=
    (List.nodup_append.mp h.nodup).1
  -- an id names its number, and no number stands in the table twice
  refine List.Nodup.map_on ?_ numbers.of_map
  intro a ha b hb same
  rw [h.ids a ha, h.ids b hb] at same
  have same := id_inj (lt_of_lt_of_le (h.pending_lt ha) few)
    (lt_of_lt_of_le (h.pending_lt hb) few) same
  exact List.inj_on_of_nodup_map numbers ha hb same

/-- Entries that have left the table may be failed. -/
theorem failAll {cs : List Call}
    (numbers : (t.pending.map (·.2.number) ++
      (cs.map Call.number ++ t.completed.map (·.1))).Perm (List.range t.issued))
    (ids : ∀ e ∈ t.pending, e.1 = UInt64.ofNat e.2.number) :
    (t.failAll why cs).Accounted := by
  refine ⟨?_, by simpa using ids⟩
  rw [failAll_pending, failAll_issued, failAll_completed]
  refine List.Perm.trans ?_ numbers
  rw [List.map_append, List.map_reverse, List.map_map]
  exact ((List.reverse_perm _).append_right _).append_left _

theorem nextId_absent (h : t.Accounted) (few : t.issued < maxCalls) :
    ∀ e ∈ t.pending, e.1 ≠ t.nextId := by
  intro e he same
  rw [h.ids e he] at same
  -- every entry is older than the next call
  have older := h.pending_lt he
  exact absurd (id_inj (by omega) few same) (by omega)

end Accounted

/-- A table that keeps account of its calls and has no two entries under one id.
This needs no bound on the number of calls: a call whose id is taken displaces the
call that had it. -/
structure Tidy (t : CallTable) : Prop where
  accounted : t.Accounted
  apart : (t.pending.map (·.1)).Nodup

theorem Accounted.tidy (h : t.Accounted) (few : t.issued ≤ maxCalls) : t.Tidy :=
  ⟨h, h.ids_nodup few⟩

namespace Tidy

theorem start : CallTable.empty.Tidy := ⟨.start, List.nodup_nil⟩

/-- An entry may leave the table as a completion. -/
theorem settle (h : t.Tidy) (mem : (id, c) ∈ t.pending) (o : Completion) :
    ({ t with pending := t.pending.filter (·.1 ≠ id) }.complete c o).Tidy := by
  have split := Keyed.perm_cons_filter_ne h.apart mem
  refine ⟨⟨?_, fun e he => h.accounted.ids e (List.mem_of_mem_filter he)⟩,
    h.apart.sublist (List.filter_sublist.map _)⟩
  refine List.Perm.trans ?_ h.accounted.numbers
  -- the number goes from the entries to the completions
  have moved := ((split.map (·.2.number)).append_right (t.completed.map (·.1))).symm
  refine List.Perm.trans ?_ moved
  exact List.perm_middle

/-- The next call may be entered where its id is free. -/
theorem enter (h : t.Tidy) (absent : ∀ e ∈ t.pending, e.1 ≠ t.nextId)
    (x : Exchange) :
    Tidy { t with
      issued := t.issued + 1,
      pending := t.pending ++ [(t.nextId, ⟨t.issued, x⟩)] } := by
  refine ⟨⟨?_, ?_⟩, ?_⟩
  · simp only [List.map_append, List.map_cons, List.map_nil]
    rw [List.range_succ, List.append_assoc]
    refine List.perm_middle.trans ?_
    exact (h.accounted.numbers.cons _).trans (List.perm_append_singleton _ _).symm
  · intro e he
    rcases List.mem_append.mp he with he | he
    · exact h.accounted.ids e he
    · rw [List.mem_singleton.mp he]
      rfl
  · simp only [List.map_append, List.map_cons, List.map_nil]
    refine List.nodup_append.mpr ⟨h.apart, List.nodup_singleton _, ?_⟩
    intro old mem new this same
    obtain ⟨e, he, rfl⟩ := List.mem_map.mp mem
    exact absent e he (same.trans (List.mem_singleton.mp this))

theorem withdraw (h : t.Tidy) : (t.withdraw id).Tidy := by
  cases found : t.remove id with
  | none =>
      rw [withdraw_of_absent (remove_eq_none.mp found)]
      exact h
  | some out =>
      rw [withdraw_of_remove found]
      exact h.settle (remove_eq_some found).1 _

theorem receive (h : t.Tidy) (r : Reply) : (t.receive r).Tidy := by
  cases found : t.remove r.id with
  | none =>
      rw [receive_of_foreign (remove_eq_none.mp found)]
      exact ⟨⟨h.accounted.numbers, h.accounted.ids⟩, h.apart⟩
  | some out =>
      have settled := h.settle (remove_eq_some found).1 (r.verdict out.1.exchange)
      rw [receive_of_remove found]
      exact ⟨⟨settled.accounted.numbers, settled.accounted.ids⟩, settled.apart⟩

theorem close (h : t.Tidy) : (t.close why).Tidy := by
  refine ⟨Accounted.failAll ?_ (by simp), by simp [CallTable.close]⟩
  rw [List.map_map]
  exact h.accounted.numbers

theorem issue (h : t.Tidy) (x : Exchange) : (t.issue x).Tidy := by
  by_cases closed : t.closed = true
  · -- a closed table completes the call at once
    rw [CallTable.issue, if_pos closed]
    refine ⟨Accounted.failAll
      (List.perm_middle.trans ?_) h.accounted.ids, by simpa using h.apart⟩
    rw [List.range_succ]
    exact (h.accounted.numbers.cons _).trans (List.perm_append_singleton _ _).symm
  · rw [CallTable.issue, if_neg closed]
    cases found : t.remove t.nextId with
    | none =>
        have absent := remove_eq_none.mp found
        rw [insert_of_absent (t := { t with issued := t.issued + 1 }) absent]
        exact h.enter absent x
    | some out =>
        -- the call under the same id is completed first
        have left := h.settle (remove_eq_some found).1
          (.failed out.1.exchange Disconnect.callDropped.error)
        obtain ⟨d, listed, rfl⟩ := Option.map_eq_some_iff.mp found
        have gone : CallTable.remove { t with issued := t.issued + 1 } t.nextId =
            some (d, { t with
              issued := t.issued + 1,
              pending := t.pending.filter (·.1 ≠ t.nextId) }) := by
          rw [CallTable.remove, listed]
          rfl
        rw [insert_of_remove gone]
        refine left.enter ?_ x
        intro e he
        exact of_decide_eq_true (List.mem_filter.mp he).2

end Tidy

namespace Accounted

theorem receive (h : t.Accounted) (few : t.issued ≤ maxCalls) (r : Reply) :
    (t.receive r).Accounted := ((h.tidy few).receive r).accounted

theorem issue (h : t.Accounted) (few : t.issued < maxCalls) (x : Exchange) :
    (t.issue x).Accounted := ((h.tidy few.le).issue x).accounted

end Accounted

/-! ## Orders of operations -/

@[simp] theorem insert_issued : (t.insert id c).issued = t.issued := by
  cases found : t.remove id with
  | none => rw [insert_of_absent (remove_eq_none.mp found)]
  | some out => rw [insert_of_remove found]

@[simp] theorem insert_closed : (t.insert id c).closed = t.closed := by
  cases found : t.remove id with
  | none => rw [insert_of_absent (remove_eq_none.mp found)]
  | some out => rw [insert_of_remove found]

@[simp] theorem issue_issued (x : Exchange) :
    (t.issue x).issued = t.issued + 1 := by
  by_cases closed : t.closed = true <;> simp [issue, closed]

@[simp] theorem issue_closed (x : Exchange) : (t.issue x).closed = t.closed := by
  by_cases closed : t.closed = true <;> simp [issue, closed]

@[simp] theorem withdraw_issued : (t.withdraw id).issued = t.issued := by
  cases found : t.remove id with
  | none => rw [withdraw_of_absent (remove_eq_none.mp found)]
  | some out => rw [withdraw_of_remove found]

@[simp] theorem withdraw_closed : (t.withdraw id).closed = t.closed := by
  cases found : t.remove id with
  | none => rw [withdraw_of_absent (remove_eq_none.mp found)]
  | some out => rw [withdraw_of_remove found]

@[simp] theorem receive_issued (r : Reply) : (t.receive r).issued = t.issued := by
  cases found : t.remove r.id with
  | none => rw [receive_of_foreign (remove_eq_none.mp found)]; rfl
  | some out => rw [receive_of_remove found]

@[simp] theorem receive_closed (r : Reply) : (t.receive r).closed = t.closed := by
  cases found : t.remove r.id with
  | none => rw [receive_of_foreign (remove_eq_none.mp found)]; rfl
  | some out => rw [receive_of_remove found]

@[simp] theorem close_issued : (t.close why).issued = t.issued := by
  simp [close]

@[simp] theorem close_closed : (t.close why).closed = true := by
  simp [close]

@[simp] theorem insert_violations : (t.insert id c).violations = t.violations := by
  cases found : t.remove id with
  | none => rw [insert_of_absent (remove_eq_none.mp found)]
  | some out => rw [insert_of_remove found]

@[simp] theorem issue_violations (x : Exchange) :
    (t.issue x).violations = t.violations := by
  by_cases closed : t.closed = true <;> simp [issue, closed]

@[simp] theorem withdraw_violations :
    (t.withdraw id).violations = t.violations := by
  cases found : t.remove id with
  | none => rw [withdraw_of_absent (remove_eq_none.mp found)]
  | some out => rw [withdraw_of_remove found]

@[simp] theorem close_violations : (t.close why).violations = t.violations := by
  simp [close]

/-- What stands in the table after a call stood there before, or is the call. -/
theorem mem_pending_issue {x : Exchange} {e : UInt64 × Call}
    (listed : e ∈ (t.issue x).pending) :
    e ∈ t.pending ∨ e = (t.nextId, ⟨t.issued, x⟩) := by
  by_cases closed : t.closed = true
  · rw [issue, if_pos closed, failAll_pending] at listed
    exact .inl listed
  · rw [issue, if_neg closed] at listed
    cases found : CallTable.remove { t with issued := t.issued + 1 } t.nextId with
    | none =>
        rw [insert_of_absent (remove_eq_none.mp found)] at listed
        rcases List.mem_append.mp listed with old | new
        · exact .inl old
        · exact .inr (List.mem_singleton.mp new)
    | some out =>
        rw [insert_of_remove found] at listed
        rcases List.mem_append.mp listed with old | new
        · exact .inl (List.mem_of_mem_filter old)
        · exact .inr (List.mem_singleton.mp new)

/-- What stands in the table after a reply stood there before, and not under
the reply's id. -/
theorem mem_pending_receive {r : Reply} {e : UInt64 × Call}
    (listed : e ∈ (t.receive r).pending) :
    e ∈ t.pending ∧ e.1 ≠ r.id := by
  cases found : t.remove r.id with
  | none =>
      have foreign := remove_eq_none.mp found
      rw [receive_of_foreign foreign] at listed
      exact ⟨listed, foreign e listed⟩
  | some out =>
      rw [receive_of_remove found] at listed
      exact ⟨List.mem_of_mem_filter listed,
        of_decide_eq_true (List.mem_filter.mp listed).2⟩

theorem issued_le_apply (op : Operation) : t.issued ≤ (t.apply op).issued := by
  cases op <;> simp [apply]

theorem completed_insert : t.completed <:+ (t.insert id c).completed := by
  cases found : t.remove id with
  | none =>
      rw [insert_of_absent (remove_eq_none.mp found)]
  | some out =>
      rw [insert_of_remove found]
      exact List.suffix_cons _ _

/-- A completion is never forgotten or changed. -/
theorem completed_apply (op : Operation) :
    t.completed <:+ (t.apply op).completed := by
  cases op with
  | issue x =>
      by_cases closed : t.closed = true
      · rw [apply, issue, if_pos closed]
        exact List.suffix_cons _ _
      · rw [apply, issue, if_neg closed]
        exact completed_insert (t := { t with issued := t.issued + 1 })
  | withdraw id =>
      rw [apply]
      cases found : t.remove id with
      | none =>
          rw [withdraw_of_absent (remove_eq_none.mp found)]
      | some out =>
          rw [withdraw_of_remove found]
          exact List.suffix_cons _ _
  | receive r =>
      rw [apply]
      cases found : t.remove r.id with
      | none =>
          rw [receive_of_foreign (remove_eq_none.mp found)]
          exact List.suffix_refl _
      | some out =>
          rw [receive_of_remove found]
          exact List.suffix_cons _ _
  | close why =>
      rw [apply, close, failAll_completed]
      exact List.suffix_append _ _

theorem Tidy.apply (h : t.Tidy) (op : Operation) : (t.apply op).Tidy := by
  cases op with
  | issue x => exact h.issue x
  | withdraw id => exact h.withdraw
  | receive r => exact h.receive r
  | close why => exact h.close

/-- The table after operations, the first one first. -/
def applyAll (t : CallTable) (ops : List Operation) : CallTable := ops.foldl apply t

theorem issued_le_applyAll (ops : List Operation) :
    t.issued ≤ (t.applyAll ops).issued := by
  induction ops generalizing t with
  | nil => exact Nat.le_refl _
  | cons op ops ih => exact (issued_le_apply op).trans ih

theorem completed_applyAll (ops : List Operation) :
    t.completed <:+ (t.applyAll ops).completed := by
  induction ops generalizing t with
  | nil => exact List.suffix_refl _
  | cons op ops ih => exact (completed_apply op).trans ih

theorem closed_applyAll (ops : List Operation) (closed : t.closed = true) :
    (t.applyAll ops).closed = true := by
  induction ops generalizing t with
  | nil => exact closed
  | cons op ops ih => exact ih (by cases op <;> simp [apply, closed])

/-- Every order of operations keeps account of the calls, however
many there are. -/
theorem Tidy.applyAll (h : t.Tidy) (ops : List Operation) :
    (t.applyAll ops).Tidy := by
  induction ops generalizing t with
  | nil => exact h
  | cons op ops ih => exact ih (h.apply op)

theorem accounted_applyAll {ops : List Operation} (h : t.Accounted)
    (few : (t.applyAll ops).issued ≤ maxCalls) : (t.applyAll ops).Accounted :=
  ((h.tidy ((issued_le_applyAll ops).trans few)).applyAll ops).accounted

end CallTable

/-! ## The controller's operations -/

namespace Controller

/-- What an event does to a controller, where it can happen. -/
inductive Step (c : Controller) : Event → Controller → Prop
  | lookup {pid} (owned : c.dropped = false) :
      Step c (.lookup pid) (c.call .lookup (.lookup · pid))
  | health (owned : c.dropped = false) : Step c .health (c.call .health .health)
  | drop (owned : c.dropped = false) : Step c .drop { c with dropped := true }
  | take {r rest} (serves : c.writerGone = false) (free : c.writing = none)
      (next : c.queue = r :: rest) :
      Step c .take { c with writing := some r, queue := rest }
  | wrote {r} (busy : c.writing = some r) : Step c .wrote { c with writing := none }
  | writeFailed {r} (busy : c.writing = some r) :
      Step c .writeFailed { c with
        calls := c.calls.close .writeFailed, queue := [],
        writing := none, writerGone := true }
  | writerDone (serves : c.writerGone = false) (free : c.writing = none)
      (written : c.queue = [])
      (dropped : c.dropped = true) :
      Step c .writerDone { c with writerGone := true }
  | receive {r} (reads : c.readerGone = false) :
      Step c (.receive r) { c with calls := c.calls.receive r }
  | readerDone {why} (reads : c.readerGone = false)
      (meant : why = .stopped → c.dropped = true) :
      Step c (.readerDone why) { c with
        calls := c.calls.close why.disconnect, readerGone := true }

theorem step_of_step? {c c' : Controller} {e : Event} (h : c.step? e = some c') :
    Step c e c' := by
  cases e with
  | lookup pid =>
      simp only [step?] at h
      split_ifs at h with dropped
      cases h
      exact .lookup (by simpa using dropped)
  | health =>
      simp only [step?] at h
      split_ifs at h with dropped
      cases h
      exact .health (by simpa using dropped)
  | drop =>
      simp only [step?] at h
      split_ifs at h with dropped
      cases h
      exact .drop (by simpa using dropped)
  | take =>
      simp only [step?] at h
      split at h
      case h_1 serves free next => cases h; exact .take serves free next
      case h_2 => cases h
  | wrote =>
      obtain ⟨r, busy, rfl⟩ := Option.map_eq_some_iff.mp h
      exact .wrote busy
  | writeFailed =>
      obtain ⟨r, busy, rfl⟩ := Option.map_eq_some_iff.mp h
      exact .writeFailed busy
  | writerDone =>
      simp only [step?] at h
      split at h
      case h_1 serves free written dropped =>
        cases h; exact .writerDone serves free written dropped
      case h_2 => cases h
  | receive r =>
      simp only [step?] at h
      split_ifs at h with gone
      cases h
      exact .receive (by simpa using gone)
  | readerDone why =>
      simp only [step?] at h
      split_ifs at h with shut
      cases h
      obtain ⟨reads, meant⟩ := not_or.mp shut
      refine .readerDone (by simpa using reads) fun stopped => ?_
      simpa [stopped] using meant

/-- What an event of a controller does to its table. -/
def operations (c : Controller) : Event → List CallTable.Operation
  | .lookup _ => operationsOfCall .lookup
  | .health => operationsOfCall .health
  | .writeFailed => [.close .writeFailed]
  | .receive r => [.receive r]
  | .readerDone why => [.close why.disconnect]
  | .drop | .take | .wrote | .writerDone => []
where
  operationsOfCall (x : Exchange) : List CallTable.Operation :=
    .issue x ::
      if !c.calls.closed && c.writerGone then [.withdraw c.calls.nextId] else []

theorem call_calls (c : Controller) (x : Exchange) (request : UInt64 → Request) :
    (c.call x request).calls =
      c.calls.applyAll (operations.operationsOfCall c x) := by
  simp only [call, operations.operationsOfCall]
  cases c.calls.closed <;> cases c.writerGone <;> rfl

@[simp] theorem call_readerGone (c : Controller) (x : Exchange)
    (request : UInt64 → Request) :
    (c.call x request).readerGone = c.readerGone := by
  unfold call
  split_ifs <;> rfl

@[simp] theorem call_dropped (c : Controller) (x : Exchange)
    (request : UInt64 → Request) :
    (c.call x request).dropped = c.dropped := by
  unfold call
  split_ifs <;> rfl

/-- A controller touches its table only by operations. -/
theorem step?_calls {c c' : Controller} {e : Event} (h : c.step? e = some c') :
    c'.calls = c.calls.applyAll (c.operations e) := by
  cases step_of_step? h with
  | lookup | health => exact call_calls ..
  | _ => rfl

/-- An event makes at most one call. -/
theorem issued_step? {c c' : Controller} {e : Event} (h : c.step? e = some c') :
    c.calls.issued ≤ c'.calls.issued ∧ c'.calls.issued ≤ c.calls.issued + 1 := by
  rw [step?_calls h]
  refine ⟨CallTable.issued_le_applyAll _, ?_⟩
  cases e with
  | lookup pid | health =>
      simp only [operations, operations.operationsOfCall]
      split_ifs <;> simp [CallTable.applyAll, CallTable.apply]
  | drop | take | wrote | writerDone | writeFailed | receive r | readerDone why =>
      simp [operations, CallTable.applyAll, CallTable.apply]

/-- A completion is never forgotten or changed. -/
theorem completed_step? {c c' : Controller} {e : Event} (h : c.step? e = some c') :
    c.calls.completed <:+ c'.calls.completed := by
  rw [step?_calls h]
  exact CallTable.completed_applyAll _

/-- Every run of a controller keeps account of its calls. -/
theorem tidy_of_run {es : List Event} {c : Controller}
    (run : es.foldlM step? fresh = some c) :
    c.calls.Tidy := by
  refine Run.induct (P := fun _ c => c.calls.Tidy) .start ?_ run
  intro es c e c' _ ih step
  rw [step?_calls step]
  exact ih.applyAll _

end Controller

end ElementAgent

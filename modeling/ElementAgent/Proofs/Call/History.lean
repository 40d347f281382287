import ElementAgent.Proofs.Call.Conservation

/-!
# What calls come to, by their history

A history lists what an open connection sees: calls that are made and replies that
come, in their order. It alone says what every call comes to (`History.outcome?`)
and which replies are good (`History.isGood`). Main statement: after every run on
a connection that has not been closed the table is the one that the history says
(`Controller.follows_of_run`).
-/

namespace ElementAgent

/-- What happens to the calls of an open connection. -/
inductive Incident where
  | call (x : Exchange)
  | reply (r : Reply)

/-- What has happened, oldest first. -/
abbrev History := List Incident

namespace Incident

def call? : Incident → Option Exchange
  | .call x => some x
  | .reply _ => none

def reply? : Incident → Option Reply
  | .call _ => none
  | .reply r => some r

end Incident

namespace History

/-- The calls in the order of their numbers. -/
def calls (h : History) : List Exchange := h.filterMap Incident.call?

def replies (h : History) : List Reply := h.filterMap Incident.reply?

/-- The replies that came after the call with a number. -/
def repliesAfter : (n : Nat) → History → List Reply
  | _, [] => []
  | 0, .call _ :: h => replies h
  | n + 1, .call _ :: h => repliesAfter n h
  | n, .reply _ :: h => repliesAfter n h

/-- The replies with the id of a call that came after it. -/
def answersTo (n : Nat) (h : History) : List Reply :=
  (repliesAfter n h).filter (·.id = UInt64.ofNat n)

/-- What a call comes to: the first of its answers decides. -/
def outcome? (h : History) (n : Nat) : Option Completion :=
  match h.calls[n]?, (h.answersTo n).head? with
  | some x, some r => some (r.verdict x)
  | _, _ => none

/-- A reply is good if the call of its id has been made, has had no answer yet, is
of the reply's kind, and the reply is not rejected. -/
def isGood (before : History) (r : Reply) : Bool :=
  match before.calls[r.id.toNat]? with
  | some x => (before.answersTo r.id.toNat).isEmpty && !r.breaksRules x
  | none => false

/-- A reply that was not good when it came. -/
def isLapse (good : History → Reply → Bool) (before : History) : Incident → Bool
  | .call _ => false
  | .reply r => !good before r

/-- How many replies were not good when they came. -/
def lapses (good : History → Reply → Bool) (h : History) : Nat :=
  (List.range h.length).countP fun p => h[p]?.any (isLapse good (h.take p))

/-- How many violations the history holds. -/
def violations (h : History) : Nat := lapses isGood h

/-! ## One more incident -/

variable {h : History} {n : Nat}

@[simp] theorem calls_call (x : Exchange) :
    calls (h ++ [.call x]) = calls h ++ [x] := by
  simp [calls, Incident.call?]

@[simp] theorem calls_reply (r : Reply) : calls (h ++ [.reply r]) = calls h := by
  simp [calls, Incident.call?]

theorem repliesAfter_call (x : Exchange) :
    repliesAfter n (h ++ [.call x]) = repliesAfter n h := by
  induction h generalizing n with
  | nil => cases n <;> rfl
  | cons i h ih =>
      cases i with
      | reply r => exact ih
      | call y =>
          cases n with
          | zero => simp [repliesAfter, replies, Incident.reply?]
          | succ n => exact ih

theorem mem_replies_of_repliesAfter {r : Reply} (came : r ∈ repliesAfter n h) :
    r ∈ replies h := by
  induction h generalizing n with
  | nil => cases n <;> cases came
  | cons i h ih =>
      cases i with
      | reply g =>
          have later : r ∈ repliesAfter n h := by cases n <;> exact came
          exact List.mem_cons_of_mem _ (ih later)
      | call x =>
          cases n with
          | zero => exact came
          | succ n => exact ih came

/-- A reply comes after the calls made so far. -/
theorem repliesAfter_reply (r : Reply) :
    repliesAfter n (h ++ [.reply r]) =
      repliesAfter n h ++ if n < (calls h).length then [r] else [] := by
  induction h generalizing n with
  | nil => cases n <;> rfl
  | cons i h ih =>
      cases i with
      | reply r => exact ih
      | call y =>
          cases n with
          | zero =>
              simp [repliesAfter, replies, calls, Incident.reply?, Incident.call?]
          | succ n =>
              rw [List.cons_append, repliesAfter, ih, repliesAfter]
              congr 1
              exact if_congr Nat.succ_lt_succ_iff.symm rfl rfl

/-- A call that has not been made has no answers. -/
theorem repliesAfter_eq_nil (late : (calls h).length ≤ n) :
    repliesAfter n h = [] := by
  induction h using List.reverseRecOn with
  | nil => cases n <;> rfl
  | append_singleton h i ih =>
      cases i with
      | call x =>
          rw [repliesAfter_call]
          exact ih (by simp at late; omega)
      | reply r =>
          rw [calls_reply] at late
          rw [repliesAfter_reply, ih late, if_neg (by omega), List.append_nil]

@[simp] theorem answersTo_call (x : Exchange) :
    answersTo n (h ++ [.call x]) = answersTo n h := by
  rw [answersTo, repliesAfter_call, answersTo]

theorem answersTo_reply (r : Reply) :
    answersTo n (h ++ [.reply r]) =
      answersTo n h ++
        if n < (calls h).length ∧ r.id = UInt64.ofNat n then [r] else [] := by
  rw [answersTo, repliesAfter_reply, List.filter_append, answersTo]
  by_cases made : n < (calls h).length <;> by_cases same : r.id = UInt64.ofNat n <;>
    simp [made, same]

/-- A call made later changes no outcome. -/
theorem outcome?_call (x : Exchange) (made : n < (calls h).length) :
    outcome? (h ++ [.call x]) n = outcome? h n := by
  rw [outcome?, answersTo_call, calls_call,
    List.getElem?_append_left made, outcome?]

/-- A reply changes the outcome of no call but an outstanding one of its id. -/
theorem outcome?_reply (r : Reply)
    (other : answersTo n h ≠ [] ∨ r.id ≠ UInt64.ofNat n) :
    outcome? (h ++ [.reply r]) n = outcome? h n := by
  have first : (answersTo n (h ++ [.reply r])).head? = (answersTo n h).head? := by
    rw [answersTo_reply]
    rcases other with answered | other
    · exact List.head?_append_of_ne_nil _ answered
    · simp [other]
  rw [outcome?, first, calls_reply, outcome?]

theorem lapses_concat (good : History → Reply → Bool) (i : Incident) :
    lapses good (h ++ [i]) = lapses good h + if isLapse good h i then 1 else 0 := by
  -- only the last incident is new to the count
  have earlier : ∀ p ∈ List.range h.length,
      ((h ++ [i])[p]?.any (isLapse good ((h ++ [i]).take p)) = true ↔
        h[p]?.any (isLapse good (h.take p)) = true) := by
    intro p hp
    have inside : p < h.length := List.mem_range.mp hp
    rw [List.getElem?_append_left inside, List.take_append_of_le_length inside.le]
  rw [lapses, List.length_append, List.length_singleton, List.range_succ,
    List.countP_append, List.countP_congr earlier, lapses]
  simp [List.countP_singleton]

@[simp] theorem violations_call (x : Exchange) :
    violations (h ++ [.call x]) = violations h :=
  lapses_concat isGood _

theorem violations_reply (r : Reply) :
    violations (h ++ [.reply r]) = violations h + if isGood h r then 0 else 1 := by
  rw [violations, lapses_concat, isLapse, violations]
  cases isGood h r <;> rfl

theorem isGood_iff {r : Reply} :
    isGood h r = true ↔ ∃ x,
      (calls h)[r.id.toNat]? = some x ∧ answersTo r.id.toNat h = [] ∧
      r.breaksRules x = false := by
  unfold isGood
  cases (calls h)[r.id.toNat]? <;> simp

end History

/-! ## The table follows the history -/

namespace CallTable

/-- The table is the one that the history says. -/
structure Follows (t : CallTable) (h : History) : Prop where
  accounted : t.Accounted
  issued : t.issued = h.calls.length
  exchanges : ∀ e ∈ t.pending, h.calls[e.2.number]? = some e.2.exchange
  unanswered : ∀ e ∈ t.pending, h.answersTo e.2.number = []
  outcomes : ∀ d ∈ t.completed, h.outcome? d.1 = some d.2
  violations : t.violations = UInt64.ofNat h.violations

namespace Follows

variable {t : CallTable} {h : History}

theorem start : CallTable.empty.Follows [] :=
  ⟨.start, rfl, by simp [CallTable.empty], by simp [CallTable.empty],
    by simp [CallTable.empty], rfl⟩

theorem answered (f : t.Follows h) {d : Nat × Completion} (hd : d ∈ t.completed) :
    h.answersTo d.1 ≠ [] := by
  intro none_yet
  have outcome := f.outcomes d hd
  simp [History.outcome?, none_yet] at outcome

/-- A call without an answer stands in the table. -/
theorem mem_pending (f : t.Follows h) {n : Nat} (made : n < t.issued)
    (none_yet : h.answersTo n = []) :
    ∃ e ∈ t.pending, e.2.number = n := by
  have listed := f.accounted.numbers.mem_iff.mpr (List.mem_range.mpr made)
  rcases List.mem_append.mp listed with mem | mem
  · exact List.mem_map.mp mem
  · obtain ⟨d, hd, rfl⟩ := List.mem_map.mp mem
    exact absurd none_yet (f.answered hd)

theorem issue (f : t.Follows h) (few : t.issued < maxCalls)
    (open_ : t.closed = false) (x : Exchange) :
    (t.issue x).Follows (h ++ [.call x]) := by
  have accounted := f.accounted.issue few x
  rw [issue_of_open open_ (f.accounted.nextId_absent few)] at accounted ⊢
  refine { accounted, issued := ?issued, exchanges := ?exchanges,
           unanswered := ?unanswered, outcomes := ?outcomes,
           violations := ?violations }
  case issued =>
    rw [History.calls_call, List.length_append, ← f.issued]
    rfl
  case exchanges =>
    intro e he
    rcases List.mem_append.mp he with he | he
    · have made := f.issued ▸ f.accounted.pending_lt he
      rw [History.calls_call, List.getElem?_append_left made, f.exchanges e he]
    · rw [List.mem_singleton.mp he, History.calls_call, f.issued]
      simp
  case unanswered =>
    intro e he
    rw [History.answersTo_call]
    rcases List.mem_append.mp he with he | he
    · exact f.unanswered e he
    · -- nothing has come since the new call was made
      rw [List.mem_singleton.mp he, History.answersTo,
        History.repliesAfter_eq_nil f.issued.ge, List.filter_nil]
  case outcomes =>
    intro d hd
    rw [History.outcome?_call x (f.issued ▸ f.accounted.completed_lt hd)]
    exact f.outcomes d hd
  case violations =>
    rw [History.violations_call]
    exact f.violations

/-- A reply whose id is not in the table is not good. -/
theorem isGood_eq_false (f : t.Follows h) {r : Reply}
    (foreign : ∀ e ∈ t.pending, e.1 ≠ r.id) :
    h.isGood r = false := by
  rw [Bool.eq_false_iff]
  intro good
  obtain ⟨x, made, none_yet, -⟩ := History.isGood_iff.mp good
  have made := (List.getElem?_eq_some_iff.mp made).1
  obtain ⟨e, he, number⟩ := f.mem_pending (f.issued ▸ made) none_yet
  refine foreign e he ?_
  rw [f.accounted.ids e he, number, UInt64.ofNat_toNat]

/-- A reply to an outstanding call is good if it keeps the rules. -/
theorem isGood_eq (f : t.Follows h) (few : t.issued ≤ maxCalls)
    {r : Reply} {c : Call}
    (mem : (r.id, c) ∈ t.pending) : h.isGood r = !r.breaksRules c.exchange := by
  have number : r.id.toNat = c.number := by
    rw [show r.id = UInt64.ofNat c.number from f.accounted.ids _ mem,
      toNat_id ((f.accounted.pending_lt mem).trans_le few)]
  rw [History.isGood, number, f.exchanges _ mem, f.unanswered _ mem]
  simp

theorem receive_foreign (f : t.Follows h) {r : Reply}
    (foreign : ∀ e ∈ t.pending, e.1 ≠ r.id) :
    t.violate.Follows (h ++ [.reply r]) := by
  have accounted : t.violate.Accounted := ⟨f.accounted.numbers, f.accounted.ids⟩
  refine { accounted, issued := ?issued, exchanges := ?exchanges,
           unanswered := ?unanswered, outcomes := ?outcomes,
           violations := ?violations }
  case issued =>
    rw [History.calls_reply]
    exact f.issued
  case exchanges =>
    intro e he
    rw [History.calls_reply]
    exact f.exchanges e he
  case unanswered =>
    intro e he
    have other : r.id ≠ UInt64.ofNat e.2.number :=
      f.accounted.ids e he ▸ (foreign e he).symm
    rw [History.answersTo_reply, if_neg (fun h => other h.2), List.append_nil]
    exact f.unanswered e he
  case outcomes =>
    intro d hd
    rw [History.outcome?_reply r (.inl (f.answered hd))]
    exact f.outcomes d hd
  case violations =>
    rw [History.violations_reply, f.isGood_eq_false foreign]
    simp [violate, f.violations]

theorem receive (f : t.Follows h) (few : t.issued ≤ maxCalls) (r : Reply) :
    (t.receive r).Follows (h ++ [.reply r]) := by
  cases found : t.remove r.id with
  | none =>
      rw [receive_of_foreign (remove_eq_none.mp found)]
      exact f.receive_foreign (remove_eq_none.mp found)
  | some out =>
      obtain ⟨c, t'⟩ := out
      have mem := (remove_eq_some found).1
      have accounted := f.accounted.receive few r
      have is_id : r.id = UInt64.ofNat c.number := f.accounted.ids _ mem
      have made : c.number < h.calls.length := f.issued ▸ f.accounted.pending_lt mem
      have good := f.isGood_eq few mem
      rw [receive_of_remove found] at accounted ⊢
      refine { accounted, issued := ?issued, exchanges := ?exchanges,
               unanswered := ?unanswered, outcomes := ?outcomes,
               violations := ?violations }
      case issued =>
        rw [History.calls_reply]
        exact f.issued
      case exchanges =>
        intro e he
        rw [History.calls_reply]
        exact f.exchanges e (List.mem_of_mem_filter he)
      case unanswered =>
        intro e he
        obtain ⟨he, other⟩ := List.mem_filter.mp he
        have other : e.1 ≠ r.id := by simpa using other
        rw [f.accounted.ids e he] at other
        rw [History.answersTo_reply, if_neg (fun h => other h.2.symm),
          List.append_nil]
        exact f.unanswered e he
      case outcomes =>
        intro d hd
        rcases List.mem_cons.mp hd with rfl | hd
        · -- the call of this id had no answer, so this one is the first
          rw [History.outcome?, History.answersTo_reply, f.unanswered _ mem,
            if_pos ⟨made, is_id⟩, History.calls_reply, f.exchanges _ mem]
          rfl
        · rw [History.outcome?_reply r (.inl (f.answered hd))]
          exact f.outcomes d hd
      case violations =>
        rw [History.violations_reply, good, f.violations]
        cases r.breaksRules c.exchange <;> simp

/-- A call stands in the table exactly as long as it has no answer. -/
theorem pending_iff (f : t.Follows h) {n : Nat} (made : n < t.issued) :
    (∃ e ∈ t.pending, e.2.number = n) ↔ h.answersTo n = [] := by
  constructor
  · rintro ⟨e, he, rfl⟩
    exact f.unanswered e he
  · exact f.mem_pending made

/-- A call comes to what its history says, and to nothing else. -/
theorem completed_iff (f : t.Follows h) {n : Nat} (made : n < t.issued)
    (o : Completion) :
    (n, o) ∈ t.completed ↔ h.outcome? n = some o := by
  constructor
  · exact f.outcomes (n, o)
  · intro outcome
    have listed := f.accounted.numbers.mem_iff.mpr (List.mem_range.mpr made)
    rcases List.mem_append.mp listed with mem | mem
    · obtain ⟨e, he, rfl⟩ := List.mem_map.mp mem
      simp [History.outcome?, f.unanswered e he] at outcome
    · obtain ⟨⟨n, o'⟩, hd, rfl⟩ := List.mem_map.mp mem
      cases (f.outcomes _ hd).symm.trans outcome
      exact hd

end Follows

end CallTable

/-! ## Runs on an open connection -/

namespace Controller

/-- What an event of an open connection means to its calls. -/
def Event.incident? : Event → Option Incident
  | .lookup _ => some (.call .lookup)
  | .health => some (.call .health)
  | .receive r => some (.reply r)
  | .drop | .take | .wrote | .writeFailed | .writerDone | .readerDone _ => none

/-- The history of a run on an open connection. -/
def history (es : List Event) : History := es.filterMap Event.incident?

/-- A writer goes away when the table has been closed or nobody is
left to make calls. -/
def WriterStays (c : Controller) : Prop :=
  c.writerGone = true → c.calls.closed = true ∨ c.dropped = true

theorem WriterStays.step {c c' : Controller} {e : Event} (stays : c.WriterStays)
    (step : c.step? e = some c') : c'.WriterStays := by
  intro gone
  cases step_of_step? step with
  | lookup owned | health owned =>
      have gone : c.writerGone = true := by
        simp only [call] at gone
        split_ifs at gone <;> assumption
      -- the owner is still there, so it is the table that was closed
      have closed : c.calls.closed = true := by
        rcases stays gone with closed | dropped
        · exact closed
        · rw [owned] at dropped
          cases dropped
      exact .inl (by simp [call, closed])
  | drop => exact .inr rfl
  | take | wrote => exact stays gone
  | writerDone _ _ _ dropped => exact .inr dropped
  | writeFailed | readerDone => exact .inl CallTable.close_closed
  | receive => simpa using stays gone

theorem writerStays_of_run {es : List Event} {c : Controller}
    (run : es.foldlM step? fresh = some c) :
    c.WriterStays :=
  Run.induct (P := fun _ c => c.WriterStays) (by simp [WriterStays, fresh])
    (fun _ _ _ _ _ ih step => ih.step step) run

/-- A call on an open connection is entered and its request queued. -/
theorem call_of_open {c : Controller} (stays : c.WriterStays)
    (open_ : c.calls.closed = false) (kept : c.dropped = false)
    (x : Exchange) (request : UInt64 → Request) :
    c.call x request =
      { c with
        calls := c.calls.issue x,
        queue := c.queue ++ [request c.calls.nextId] } := by
  have serves : c.writerGone = false := by
    by_contra gone
    rcases stays (by simpa using gone) with closed | dropped
    · simp [open_] at closed
    · simp [kept] at dropped
  simp [call, open_, serves]

/-- On a connection that stays open an event does to the table what it
means to the calls. -/
theorem step?_open {c c' : Controller} {e : Event} (stays : c.WriterStays)
    (step : c.step? e = some c') (open' : c'.calls.closed = false) :
    c.calls.closed = false ∧
      c'.calls =
        match e.incident? with
        | none => c.calls
        | some (.call x) => c.calls.issue x
        | some (.reply r) => c.calls.receive r := by
  have open_ : c.calls.closed = false := by
    by_contra closed
    rw [step?_calls step] at open'
    have closed :=
      CallTable.closed_applyAll (c.operations e) (by simpa using closed)
    simp [open'] at closed
  refine ⟨open_, ?_⟩
  cases step_of_step? step with
  | lookup owned | health owned =>
      rw [call_of_open stays open_ owned]
      rfl
  | drop | take | wrote | writerDone | receive => rfl
  | writeFailed | readerDone => simp at open'

/-- As long as the connection is open the table follows the history of the run. -/
theorem follows_of_run {es : List Event} {c : Controller}
    (run : es.foldlM step? fresh = some c) (open_ : c.calls.closed = false)
    (few : c.calls.issued ≤ maxCalls) :
    c.calls.Follows (history es) := by
  revert open_ few
  refine Run.induct
    (P := fun es c => c.calls.closed = false → c.calls.issued ≤ maxCalls →
    c.calls.Follows (history es)) (fun _ _ => .start) ?_ run
  intro es c e c' run ih step open' few
  obtain ⟨open_, calls⟩ := step?_open (writerStays_of_run run) step open'
  have follows := ih open_ ((issued_step? step).1.trans few)
  rw [history, List.filterMap_append]
  cases meaning : e.incident? with
  | none =>
      rw [meaning] at calls
      simpa [meaning, calls, history] using follows
  | some i =>
      rw [meaning] at calls
      rw [List.filterMap_cons_some meaning, calls]
      cases i with
      | call x =>
          rw [calls, CallTable.issue_issued] at few
          exact follows.issue few open_ x
      | reply r =>
          rw [calls, CallTable.receive_issued] at few
          exact follows.receive few r

end Controller

end ElementAgent

import ElementAgent.Proofs.Call.Closing
import Mathlib.Data.List.TakeWhile
import Mathlib.Tactic.IntervalCases

/-!
# Who is accused

An honest agent answers requests that were sent to it, each at most once, with
replies of their kind that carry exactly what they should (`Controller.IsHonest`).
Main statements:

* **open**: as long as the connection is open every reply of an honest agent is
  good (`violations_of_honest`);
* **closed**: once a write has failed the table is empty, but the reader goes on:
  every reply that comes then is counted as a violation, whatever it is
  (`closed_receive`).

So the violations that an honest agent is charged with are the replies that come
after a failed write (`violations_eq_late`), and there can be some
(`late_reply_accused`).
-/

namespace ElementAgent

/-- A lookup's reply carries a bundle id that is not empty, or a
failure, and not both. -/
def Reply.IsProper : Reply → Prop
  | .lookup r =>
    (∃ b, b ≠ "" ∧ r.bundle = some b ∧ r.failure = none) ∨
      r.bundle = none ∧ ∃ f, r.failure = some f
  | .health _ => True

theorem Reply.IsProper.isRejected {r : Reply} (h : r.IsProper) :
    r.isRejected = false := by
  cases r with
  | health report => rfl
  | lookup r =>
      show r.isViolation = false
      rcases h with ⟨b, named, bundle, none_failed⟩ | ⟨unnamed, f, failed⟩
      · simp [LookupReply.isViolation, LookupReply.verdict, bundle,
          none_failed, named]
      · simp [LookupReply.isViolation, LookupReply.verdict, unnamed, failed]

namespace Controller

open CallTable (Operation)

variable {c c' : Controller} {e : Event} {es : List Event} {r : Reply}

def Event.isReceive : Event → Bool
  | .receive _ => true
  | .lookup _ | .health | .drop | .take | .wrote | .writeFailed | .writerDone
  | .readerDone _ => false

def Event.isWriteFailed : Event → Bool
  | .writeFailed => true
  | .lookup _ | .health | .drop | .take | .wrote | .writerDone | .receive
      _ | .readerDone _ => false

/-! ## Honest agents -/

/-- What the writer takes. -/
def taken (c : Controller) : Event → List Request
  | .take => c.queue.take 1
  | _ => []

/-- The requests that the writer has taken in a run, the first one first. Of the
last one some bytes may be missing. -/
def sent (es : List Event) : List Request := Run.gather step? taken fresh es

/-- A reply that answers a request that was sent, in its kind and as it should,
and is the first to do so. -/
structure IsFair (before : List Event) (r : Reply) : Prop where
  answers : ∃ q ∈ sent before, q.id = r.id ∧ q.exchange = r.exchange
  proper : r.IsProper
  first : ∀ g ∈ (history before).replies, g.id ≠ r.id

/-- Every reply was fair when it came. -/
def IsHonest (es : List Event) : Prop :=
  ∀ i r, es[i]? = some (.receive r) → IsFair (es.take i) r

/-- How many replies come after a failed write. -/
def late (es : List Event) : Nat :=
  (es.dropWhile fun e => !e.isWriteFailed).countP Event.isReceive

theorem IsHonest.concat (honest : IsHonest (es ++ [e])) :
    IsHonest es ∧ ∀ r, e = .receive r → IsFair es r := by
  refine ⟨?_, ?_⟩
  · intro i r came
    have inside : i < es.length := (List.getElem?_eq_some_iff.mp came).1
    have fair := honest i r (by rw [List.getElem?_append_left inside, came])
    rwa [List.take_append_of_le_length inside.le] at fair
  · rintro r rfl
    have fair := honest es.length r (by simp)
    rwa [List.take_left'] at fair
    rfl

/-- Before a write fails nothing is late. -/
theorem late_eq_zero (whole : es.any Event.isWriteFailed = false) :
    late es = 0 := by
  have all : es.dropWhile (fun e => !e.isWriteFailed) = [] := by
    rw [List.dropWhile_eq_nil_iff]
    simpa using whole
  rw [late, all, List.countP_nil]

theorem late_concat :
    late (es ++ [e]) = late es +
      if es.any Event.isWriteFailed ∧ e.isReceive then 1 else 0 := by
  cases failed : es.any Event.isWriteFailed with
  | true =>
      have some : es.dropWhile (fun e => !e.isWriteFailed) ≠ [] := by
        rw [Ne, List.dropWhile_eq_nil_iff]
        simpa using failed
      rw [late, List.dropWhile_append, if_neg (by simpa using some),
        List.countP_append, List.countP_singleton, late]
      simp
  | false =>
      have nothing : es.dropWhile (fun e => !e.isWriteFailed) = [] := by
        rw [List.dropWhile_eq_nil_iff]
        simpa using failed
      rw [late_eq_zero failed, late, List.dropWhile_append,
        if_pos (by simp [nothing])]
      -- the first failed write is no reply itself
      cases e <;> simp [Event.isWriteFailed, Event.isReceive]

/-! ## While the connection is open -/

theorem history_concat :
    history (es ++ [e]) = history es ++ e.incident?.toList := by
  rw [history, List.filterMap_append, history]
  cases meaning : e.incident? <;> simp [meaning]

/-- Every call has been counted. -/
theorem issued_of_run (run : es.foldlM step? fresh = some c) :
    c.calls.issued = (history es).calls.length := by
  refine Run.induct (P := fun es c => c.calls.issued = (history es).calls.length)
    rfl ?_ run
  intro es c e c' _ ih step
  rw [history_concat, step?_calls step]
  cases e with
  | lookup pid | health =>
      simp only [operations, operations.operationsOfCall, Event.incident?,
        Option.toList_some, History.calls_call, List.length_append,
        List.length_singleton]
      split_ifs <;> simp [CallTable.applyAll, CallTable.apply, ih]
  | receive r =>
      simpa [operations, Event.incident?, CallTable.applyAll, CallTable.apply]
        using ih
  | drop | take | wrote | writeFailed | writerDone | readerDone =>
      simpa [operations, Event.incident?, CallTable.applyAll, CallTable.apply]
        using ih

/-- A call leaves the queue or puts a request with the next id behind it. -/
theorem mem_queue_call {x : Exchange} {request : UInt64 → Request} {q : Request}
    (queued : q ∈ (c.call x request).queue) :
    q ∈ c.queue ∨ q = request c.calls.nextId := by
  unfold call at queued
  split_ifs at queued
  · exact .inl queued
  · exact .inl queued
  · simpa using queued

/-- The requests have the numbers of their calls as ids, and their kinds. -/
def Known (h : History) (rs : List Request) : Prop :=
  ∀ q ∈ rs, h.calls[q.id.toNat]? = some q.exchange

theorem Known.call {h : History} {rs : List Request}
    (known : Known h (rs ++ c.queue)) (few : c.calls.issued < maxCalls)
    (count : c.calls.issued = h.calls.length)
    {x : Exchange} {request : UInt64 → Request}
    (named : ∀ id, (request id).id = id)
    (kind : ∀ id, (request id).exchange = x) :
    Known (h ++ [.call x]) (rs ++ (c.call x request).queue) := by
  intro q listed
  have earlier_or_last : q ∈ rs ++ c.queue ∨ q = request c.calls.nextId := by
    rcases List.mem_append.mp listed with old | queued
    · exact .inl (List.mem_append_left _ old)
    · exact (mem_queue_call queued).imp (List.mem_append_right _) id
  rw [History.calls_call]
  rcases earlier_or_last with old | rfl
  · have at_q := known q old
    rw [List.getElem?_append_left (List.getElem?_eq_some_iff.mp at_q).1, at_q]
  · rw [named, kind, CallTable.nextId, toNat_id few, count]
    simp

/-- What was sent and what is queued are requests of calls. -/
theorem known_of_run (run : es.foldlM step? fresh = some c)
    (few : c.calls.issued ≤ maxCalls) :
    Known (history es) (sent es ++ c.queue) := by
  revert few
  refine Run.induct (P := fun es c => c.calls.issued ≤ maxCalls →
    Known (history es) (sent es ++ c.queue))
      (fun _ => by simp [Known, sent, Run.gather, fresh]) ?_ run
  intro es c e c' run ih step few
  have known := ih ((issued_step? step).1.trans few)
  rw [sent, Run.gather_concat run, ← sent, history_concat]
  cases step_of_step? step with
  | lookup | health =>
      have fewer : c.calls.issued < maxCalls := by
        have counted := issued_of_run (Run.concat run step)
        rw [history_concat, Event.incident?, Option.toList_some, History.calls_call,
          List.length_append, List.length_singleton, ← issued_of_run run] at counted
        omega
      simp only [taken, List.append_nil, Event.incident?, Option.toList_some]
      exact known.call fewer (issued_of_run run) (fun _ => rfl) (fun _ => rfl)
  | take _ _ next =>
      simpa [taken, next, Event.incident?] using known
  | receive =>
      simp only [taken, List.append_nil, Event.incident?, Option.toList_some, Known,
        History.calls_reply]
      exact known
  | drop | wrote | writerDone | readerDone =>
      simpa [taken, Event.incident?] using known
  | writeFailed =>
      simp only [taken, List.append_nil, Event.incident?, Option.toList_none]
      exact fun q listed => known q (List.mem_append_left _ listed)

/-- As long as the connection is open an honest agent breaks no rule. -/
theorem violations_of_honest (run : es.foldlM step? fresh = some c)
    (few : c.calls.issued ≤ maxCalls) (honest : IsHonest es) :
    (history es).violations = 0 := by
  revert few honest
  refine Run.induct (P := fun es c => c.calls.issued ≤ maxCalls → IsHonest es →
    (history es).violations = 0) (fun _ _ => rfl) ?_ run
  intro es c e c' run ih step few honest
  have fewer := (issued_step? step).1.trans few
  obtain ⟨honest, fair⟩ := honest.concat
  have before := ih fewer honest
  rw [history_concat]
  cases e with
  | lookup pid | health =>
      rwa [Event.incident?, Option.toList_some, History.violations_call]
  | drop | take | wrote | writeFailed | writerDone | readerDone =>
      simpa [Event.incident?] using before
  | receive r =>
      obtain ⟨⟨q, sent, same, kind⟩, proper, first⟩ := fair r rfl
      have made := known_of_run run fewer q (List.mem_append_left _ sent)
      rw [same] at made
      have none_yet : (history es).answersTo r.id.toNat = [] := by
        rw [History.answersTo, List.filter_eq_nil_iff]
        intro g came
        rw [UInt64.ofNat_toNat]
        simpa using first g (History.mem_replies_of_repliesAfter came)
      have good : (history es).isGood r = true := by
        refine History.isGood_iff.mpr ⟨_, made, none_yet, ?_⟩
        simp [Reply.breaksRules, kind, proper.isRejected]
      rw [Event.incident?, Option.toList_some, History.violations_reply,
        good, before]
      rfl

/-! ## After a failed write -/

/-- A closed table knows no call, so every reply is a violation. -/
theorem closed_receive (run : es.foldlM step? fresh = some c)
    (closed : c.calls.closed = true) :
    (c.calls.receive r).violations = c.calls.violations + 1 := by
  rw [CallTable.receive_of_foreign (by simp [sealed_of_run run closed])]
  rfl

theorem violations_step (step : c.step? e = some c') (other : e.isReceive = false) :
    c'.calls.violations = c.calls.violations := by
  rw [step?_calls step]
  cases e with
  | lookup pid | health =>
      simp only [operations, operations.operationsOfCall]
      split_ifs <;> simp [CallTable.applyAll, CallTable.apply]
  | receive r => cases other
  | drop | take | wrote | writeFailed | writerDone | readerDone =>
      simp [operations, CallTable.applyAll, CallTable.apply]

theorem readerGone_of_mem (run : es.foldlM step? fresh = some c) {why : ReaderEnd}
    (ended : .readerDone why ∈ es) : c.readerGone = true := by
  refine Run.of_mem (P := fun c => c.readerGone = true) ?_ ?_ run ended
  · intro c c' step
    cases step_of_step? step
    rfl
  · intro c e c' step gone
    cases step_of_step? step with
    | lookup | health => rwa [call_readerGone]
    | readerDone => rfl
    | drop | take | wrote | writeFailed | writerDone | receive => exact gone

/-- A reader that goes on over a closed table does so after a failed write. -/
theorem failed_of_closed (run : es.foldlM step? fresh = some c)
    (closed : c.calls.closed = true)
    (reads : c.readerGone = false) : es.any Event.isWriteFailed = true := by
  obtain ⟨e, listed, closes⟩ := (closed_iff run).mp closed
  refine List.any_eq_true.mpr ⟨e, listed, ?_⟩
  cases e with
  | writeFailed => rfl
  | readerDone why =>
      have gone := readerGone_of_mem run listed
      rw [reads] at gone
      cases gone
  | lookup | health | drop | take | wrote | writerDone | receive => cases closes

theorem whole_of_open (run : es.foldlM step? fresh = some c)
    (open_ : c.calls.closed = false) :
    es.any Event.isWriteFailed = false := by
  by_contra failed
  obtain ⟨e, listed, failed⟩ := List.any_eq_true.mp (by simpa using failed)
  have closes : e.closes = true := by cases e <;> first | rfl | cases failed
  rw [(closed_iff run).mpr ⟨e, listed, closes⟩] at open_
  cases open_

/-- With fewer than 2^64 calls the violations with which an honest agent is
charged are the replies that come after a failed write, and no others. As long as
no write has failed there are none. -/
theorem violations_eq_late (run : fresh.run? es = some c)
    (few : c.calls.issued ≤ maxCalls) (honest : IsHonest es) :
    c.calls.violations = UInt64.ofNat (late es) ∧
      (.writeFailed ∉ es → c.calls.violations = 0) := by
  rw [run?_eq_foldlM] at run
  suffices counted : c.calls.violations = UInt64.ofNat (late es) by
    refine ⟨counted, fun whole => ?_⟩
    have none_failed : es.any Event.isWriteFailed = false := by
      rw [List.any_eq_false]
      intro e listed failed
      cases e <;> first | exact whole listed | cases failed
    rw [counted, late_eq_zero none_failed]
    rfl
  revert few honest
  refine Run.induct (P := fun es c => c.calls.issued ≤ maxCalls → IsHonest es →
    c.calls.violations = UInt64.ofNat (late es)) (fun _ _ => rfl) ?_ run
  intro es c e c' run ih step few honest
  have run' := Run.concat run step
  cases open' : c'.calls.closed with
  | false =>
      -- the history decides, and in it every reply is good
      have follows := follows_of_run run' open' few
      rw [follows.violations, violations_of_honest run' few honest,
        late_eq_zero (whole_of_open run' open')]
  | true =>
      have before := ih ((issued_step? step).1.trans few) honest.concat.1
      cases receives : e.isReceive with
      | false =>
          rw [violations_step step receives, before, late_concat, receives]
          simp
      | true =>
          cases step_of_step? step with
          | receive reads =>
              have closed : c.calls.closed = true := by simpa using open'
              have failed := failed_of_closed run closed reads
              rw [late_concat, if_pos ⟨failed, receives⟩,
                UInt64.ofNat_add, ← before]
              exact closed_receive run closed
          | lookup | health | drop | take | wrote | writeFailed | writerDone
          | readerDone => cases receives

/-- Three calls, of which the last cannot be written, and two honest replies: the
second comes after the failed write. -/
def parting : List Event :=
  [.lookup 7, .health, .take, .wrote, .take, .wrote,
    .receive (.health (.serving 1)), .lookup 8, .take, .writeFailed,
    .receive (.lookup (.found 0 "a.b"))]

theorem parting_honest : IsHonest parting := by
  have early : IsFair (parting.take 6) (.health (.serving 1)) :=
    ⟨⟨.health 1, by decide, rfl, rfl⟩, trivial, by decide⟩
  have last : IsFair (parting.take 10) (.lookup (.found 0 "a.b")) :=
    ⟨⟨.lookup 0 7, by decide, rfl, rfl⟩,
      .inl ⟨"a.b", by decide, rfl, rfl⟩, by decide⟩
  intro i r came
  have inside : i < 11 := (List.getElem?_eq_some_iff.mp came).1
  interval_cases i <;> cases came
  · exact early
  · exact last

/-- In that run one violation is counted, for the reply that came late. -/
theorem parting_late :
    ∃ c, fresh.run? parting = some c ∧ c.calls.issued ≤ maxCalls ∧
    IsHonest parting ∧ c.calls.violations = UInt64.ofNat (late parting) ∧
    late parting = 1 := by
  have run : fresh.run? parting = some _ := rfl
  exact ⟨_, run, by decide, parting_honest,
    (violations_eq_late run (by decide) parting_honest).1, rfl⟩

/-- So an agent is accused that has been honest all along. -/
theorem late_reply_accused :
    ∃ c, fresh.run? parting = some c ∧ IsHonest parting ∧
      c.calls.violations ≠ 0 := by
  have run : fresh.run? parting = some _ := rfl
  exact ⟨_, run, parting_honest, by decide⟩

end Controller

end ElementAgent

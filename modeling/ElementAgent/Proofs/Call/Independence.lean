import ElementAgent.Proofs.Call.History
import Mathlib.Algebra.BigOperators.Group.Finset.Piecewise

/-!
# Ids do not interfere

The history of one id is the call with that id and the replies that carry it. What
a call comes to, and which replies are good, can be read off the histories of the
ids one by one (`History.outcome?_about`, `History.violations_eq_sum`). So it does
not matter how incidents of different ids are interleaved.

Main statement: on an open connection the history decides what every call comes to
and how many violations are counted, and histories that agree on every id decide
alike (`matching_eq_history`).
-/

namespace ElementAgent

namespace History

/-- The incidents of an id, when `k` calls have been made before. -/
def aboutFrom (id : UInt64) : (k : Nat) → History → History
  | _, [] => []
  | k, .call x :: h =>
    if UInt64.ofNat k = id then .call x :: aboutFrom id (k + 1) h
    else aboutFrom id (k + 1) h
  | k, .reply r :: h =>
      if r.id = id then .reply r :: aboutFrom id k h else aboutFrom id k h

/-- The incidents of an id, oldest first. -/
def about (id : UInt64) (h : History) : History := aboutFrom id 0 h

variable {h g : History} {id : UInt64} {n : Nat}

theorem aboutFrom_append (k : Nat) :
    aboutFrom id k (h ++ g) =
      aboutFrom id k h ++ aboutFrom id (k + (calls h).length) g := by
  induction h generalizing k with
  | nil => rfl
  | cons i h ih =>
      cases i with
      | call x =>
          have later : k + (calls (.call x :: h)).length =
              k + 1 + (calls h).length := by
            simp only [calls, List.filterMap_cons, Incident.call?, List.length_cons]
            omega
          rw [List.cons_append, aboutFrom, aboutFrom, ih, later]
          split_ifs <;> rfl
      | reply r =>
          have later : calls (.reply r :: h) = calls h := rfl
          rw [List.cons_append, aboutFrom, aboutFrom, ih, later]
          split_ifs <;> rfl

theorem about_call (x : Exchange) :
    about id (h ++ [.call x]) =
      about id h ++ if UInt64.ofNat (calls h).length = id then [.call x]
        else [] := by
  rw [about, aboutFrom_append, Nat.zero_add, about]
  simp only [aboutFrom]

theorem about_reply (r : Reply) :
    about id (h ++ [.reply r]) = about id h ++ if r.id = id then [.reply r]
      else [] := by
  rw [about, aboutFrom_append, about]
  simp only [aboutFrom]

/-! ## One id at a time -/

/-- In the history of its id a call is the only one. -/
theorem calls_about (few : (calls h).length ≤ maxCalls) (hn : n < maxCalls) :
    calls (about (UInt64.ofNat n) h) = ((calls h)[n]?).toList := by
  induction h using List.reverseRecOn with
  | nil => rfl
  | append_singleton h i ih =>
      cases i with
      | reply r =>
          rw [calls_reply] at few ⊢
          rw [about_reply, ← ih few]
          split_ifs <;> simp
      | call x =>
          rw [calls_call, List.length_append, List.length_singleton] at few
          have ih := ih (by omega)
          rw [about_call, calls_call]
          by_cases this : (calls h).length = n
          · subst this
            rw [List.getElem?_eq_none (le_refl _)] at ih
            simp [ih]
          · have other : UInt64.ofNat (calls h).length ≠
                UInt64.ofNat n := fun same =>
              this (id_inj (by omega) hn same)
            rw [if_neg other, List.append_nil, ih]
            congr 1
            -- the new call is not the one with this number, which was made before
            -- or has not been made
            rcases Nat.lt_or_gt_of_ne this with before | after
            · rw [List.getElem?_eq_none before.le,
                List.getElem?_eq_none (by simp; omega)]
            · rw [List.getElem?_append_left after]

/-- In the history of its id a call has the same answers. -/
theorem answersTo_about (few : (calls h).length ≤ maxCalls) (hn : n < maxCalls) :
    repliesAfter 0 (about (UInt64.ofNat n) h) = answersTo n h := by
  induction h using List.reverseRecOn with
  | nil => cases n <;> rfl
  | append_singleton h i ih =>
      cases i with
      | call x =>
          rw [calls_call, List.length_append, List.length_singleton] at few
          rw [answersTo_call, ← ih (by omega), about_call]
          split_ifs
          · rw [repliesAfter_call]
          · rw [List.append_nil]
      | reply r =>
          rw [calls_reply] at few
          rw [answersTo_reply, ← ih few, about_reply]
          have one := calls_about few hn
          by_cases same : r.id = UInt64.ofNat n
          · rw [if_pos same, repliesAfter_reply, one]
            by_cases made : n < (calls h).length <;> simp [made, same]
          · simp [same]

/-- What the call comes to whose history this is. -/
def outcomeOfOne (g : History) : Option Completion :=
  match g.calls.head?, (g.repliesAfter 0).head? with
  | some x, some r => some (r.verdict x)
  | _, _ => none

/-- A reply is good for the call whose history this is. -/
def isGoodForOne (g : History) (r : Reply) : Bool :=
  match g.calls.head? with
  | some x => (g.repliesAfter 0).isEmpty && !r.breaksRules x
  | none => false

/-- What a call comes to is decided by the history of its id. -/
theorem outcome?_about (few : (calls h).length ≤ maxCalls) (hn : n < maxCalls) :
    outcome? h n = outcomeOfOne (about (UInt64.ofNat n) h) := by
  rw [outcome?, outcomeOfOne, answersTo_about few hn, calls_about few hn]
  cases (calls h)[n]? <;> rfl

/-- Whether a reply is good is decided by the history of its id. -/
theorem isGood_about (few : (calls h).length ≤ maxCalls) (r : Reply) :
    isGood h r = isGoodForOne (about r.id h) r := by
  have id_eq : r.id = UInt64.ofNat r.id.toNat := UInt64.ofNat_toNat.symm
  have small : r.id.toNat < maxCalls := r.id.toNat_lt
  rw [isGood, isGoodForOne, id_eq, answersTo_about few (id_eq ▸ small),
    calls_about few (id_eq ▸ small), ← id_eq]
  cases (calls h)[r.id.toNat]? <;> rfl

/-- Violations are counted id by id. -/
theorem violations_eq_sum {ids : Finset UInt64} (few : (calls h).length ≤ maxCalls)
    (all : ∀ r ∈ replies h, r.id ∈ ids) :
    violations h = ∑ id ∈ ids, lapses isGoodForOne (about id h) := by
  induction h using List.reverseRecOn with
  | nil => simp [violations, lapses, about, aboutFrom]
  | append_singleton h i ih =>
      have all_before : ∀ r ∈ replies h, r.id ∈ ids := fun r hr =>
        all r (by simp [replies] at hr ⊢; exact .inl hr)
      cases i with
      | call x =>
          rw [calls_call, List.length_append, List.length_singleton] at few
          rw [violations_call, ih (by omega) all_before]
          refine Finset.sum_congr rfl fun id _ => ?_
          rw [about_call]
          split_ifs
          · rw [lapses_concat]
            rfl
          · rw [List.append_nil]
      | reply r =>
          rw [calls_reply] at few
          have mem : r.id ∈ ids := all r (by simp [replies, Incident.reply?])
          rw [violations_reply, ih few all_before, isGood_about few]
          -- a reply adds to the count of its own id, and that is one of the ids
          have step : ∀ id ∈ ids, lapses isGoodForOne (about id (h ++ [.reply r])) =
              lapses isGoodForOne (about id h) +
                if r.id = id then
                  (if isGoodForOne (about r.id h) r then 0 else 1)
                else 0 := by
            intro id _
            rw [about_reply]
            by_cases this : r.id = id
            · subst this
              rw [if_pos rfl, if_pos rfl, lapses_concat, isLapse]
              cases isGoodForOne (about r.id h) r <;> rfl
            · simp [this]
          rw [Finset.sum_congr rfl step, Finset.sum_add_distrib,
            Finset.sum_ite_eq, if_pos mem]

/-- Histories that agree on every id hold the same calls. -/
theorem calls_eq_of_about (few : (calls h).length ≤ maxCalls)
    (few' : (calls g).length ≤ maxCalls)
    (agree : ∀ id, about id h = about id g) : calls h = calls g := by
  refine List.ext_getElem? fun n => ?_
  by_cases hn : n < maxCalls
  · have same := calls_about few hn
    rw [agree, calls_about few' hn] at same
    cases ch : (calls h)[n]? <;> cases cg : (calls g)[n]? <;> simp_all
  · rw [List.getElem?_eq_none (by omega), List.getElem?_eq_none (by omega)]

/-- Histories that agree on every id hold the same number of violations. -/
theorem violations_eq_of_about (few : (calls h).length ≤ maxCalls)
    (few' : (calls g).length ≤ maxCalls) (agree : ∀ id, about id h = about id g) :
    violations h = violations g := by
  -- one set of ids is large enough for both
  let ids : Finset UInt64 := ((replies h ++ replies g).map Reply.id).toFinset
  have inside (r : Reply) (hr : r ∈ replies h ++ replies g) : r.id ∈ ids :=
    List.mem_toFinset.mpr (List.mem_map_of_mem hr)
  rw [violations_eq_sum few fun r hr => inside r (List.mem_append_left _ hr),
    violations_eq_sum few' fun r hr => inside r (List.mem_append_right _ hr)]
  exact Finset.sum_congr rfl fun id _ => by rw [agree]

end History

namespace Controller

/-- On a connection that has not been closed, with fewer than 2^64 calls, the
history alone decides: a call is outstanding as long as nothing has answered it,
its first answer is its outcome, and the violations counted are the replies that
were not good. Runs whose histories agree on every id come to the same, however
the ids are interleaved. -/
theorem matching_eq_history {es : List Event} {c : Controller}
    (run : fresh.run? es = some c) (open_ : c.calls.closed = false)
    (few : c.calls.issued < maxCalls) :
    c.calls.issued = (history es).calls.length ∧
      (∀ n < c.calls.issued,
        ((∃ e ∈ c.calls.pending, e.2.number = n) ↔ (history es).answersTo n = []) ∧
          ∀ o, (n, o) ∈ c.calls.completed ↔ (history es).outcome? n = some o) ∧
      c.calls.violations = UInt64.ofNat (history es).violations ∧
      ∀ es' c', fresh.run? es' = some c' → c'.calls.closed = false →
        c'.calls.issued < maxCalls →
        (∀ id, (history es).about id = (history es').about id) →
        c.calls.issued = c'.calls.issued ∧
          c.calls.violations = c'.calls.violations ∧
          ∀ n < c.calls.issued,
            ((∃ e ∈ c.calls.pending, e.2.number = n) ↔
              ∃ e ∈ c'.calls.pending, e.2.number = n) ∧
              ∀ o, (n, o) ∈ c.calls.completed ↔ (n, o) ∈ c'.calls.completed := by
  rw [run?_eq_foldlM] at run
  have f := follows_of_run run open_ few.le
  refine ⟨f.issued, fun n hn =>
    ⟨f.pending_iff hn, f.completed_iff hn⟩, f.violations, ?_⟩
  intro es' c' run' open' few' agree
  rw [run?_eq_foldlM] at run'
  have f' := follows_of_run run' open' few'.le
  have few : (history es).calls.length ≤ maxCalls := f.issued ▸ few.le
  have few' : (history es').calls.length ≤ maxCalls := f'.issued ▸ few'.le
  have calls := History.calls_eq_of_about few few' agree
  have issued : c.calls.issued = c'.calls.issued := by
    rw [f.issued, calls, f'.issued]
  refine ⟨issued, ?_, fun n hn => ?_⟩
  · rw [f.violations, History.violations_eq_of_about few few' agree, f'.violations]
  · have small : n < maxCalls := by
      rw [f.issued] at hn
      omega
    have hn' : n < c'.calls.issued := issued ▸ hn
    rw [f.pending_iff hn, f'.pending_iff hn',
      ← History.answersTo_about few small, agree,
      History.answersTo_about few' small]
    refine ⟨Iff.rfl, fun o => ?_⟩
    rw [f.completed_iff hn, f'.completed_iff hn',
      History.outcome?_about few small, agree, ← History.outcome?_about few' small]

/-- A run with a reply that comes too early, one of the wrong kind, and
a second answer. -/
def muddled : List Event :=
  [.lookup 7, .receive (.health (.serving 1)), .health, .take,
    .receive (.lookup (.found 1 "a.b")), .receive (.lookup (.found 0 "a.b")),
    .receive (.lookup (.found 0 "c.d"))]

/-- The same incidents of each id in another order. -/
def unmuddled : List Event :=
  [.lookup 7, .receive (.lookup (.found 0 "a.b")),
    .receive (.lookup (.found 0 "c.d")), .receive (.health (.serving 1)), .health,
    .receive (.lookup (.found 1 "a.b"))]

/-- Both runs count the same three violations. -/
theorem muddled_violations :
    ∃ c c', fresh.run? muddled = some c ∧ fresh.run? unmuddled = some c' ∧
    c.calls.closed = false ∧ c'.calls.closed = false ∧ c.calls.issued < maxCalls ∧
    c'.calls.issued < maxCalls ∧
    c.calls.violations = UInt64.ofNat (history muddled).violations ∧
    c.calls.violations = c'.calls.violations ∧ c.calls.violations = 3 := by
  have agree (id : UInt64) : (history muddled).about id =
      (history unmuddled).about id := by
    have apart : ¬((0 : UInt64) = id ∧ (1 : UInt64) = id) := fun ⟨zero, one⟩ =>
      absurd (zero.trans one.symm) (by decide)
    simp only [history, muddled, unmuddled, Event.incident?, List.filterMap,
      History.about, History.aboutFrom, Reply.id, LookupReply.found,
      HealthReport.serving]
    split_ifs <;> simp_all
  have run : fresh.run? muddled = some _ := rfl
  obtain ⟨-, -, counted, others⟩ := matching_eq_history run rfl (by decide)
  exact ⟨_, _, run, rfl, rfl, rfl, by decide, by decide, counted,
    (others unmuddled _ rfl rfl (by decide) agree).2.1, rfl⟩

end Controller

end ElementAgent

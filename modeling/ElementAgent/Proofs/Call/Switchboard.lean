import ElementAgent.Call.Promise
import ElementAgent.Proofs.Call.Conservation

/-!
# Calls and their callers

A switchboard is a controller together with the promises that it made to its
callers, one for each call. The controller moves on, and its completions are
passed on to the promises; callers look at their promises or go away, at any time
and in any order.

Main statement: at every moment a call is either outstanding, alone under its own
id, or completed, once and for all, and its caller can hear what it came to
(`outstanding_xor_completed`).
-/

namespace ElementAgent

/-- A controller with the promises to its callers, in the order of their calls. -/
structure Switchboard where
  controller : Controller
  promises : List (Promise Completion)

namespace Switchboard

def fresh : Switchboard := ⟨.fresh, []⟩

def calls (w : Switchboard) : CallTable := w.controller.calls

inductive Event where
  | controller (e : Controller.Event)
  /-- The caller of the call with a number goes away. -/
  | abandon (number : Nat)
  /-- The caller of the call with a number looks. -/
  | look (number : Nat)

/-- Tells callers what their calls came to, the last one first in the list; none
if one of them was told before. -/
def tell : List (Nat × Completion) → List (Promise Completion) →
    Option (List (Promise Completion))
  | [], ps => some ps
  | (n, o) :: news, ps => do
    let ps ← tell news ps
    let (_, p) ← (← ps[n]?).complete o
    return ps.set n p

/-- The controller has moved: new calls get fresh promises, and
callers are told. -/
def moveTo? (w : Switchboard) (c : Controller) : Option Switchboard :=
  let news :=
    c.calls.completed.take (c.calls.completed.length - w.calls.completed.length)
  let made := List.replicate (c.calls.issued - w.calls.issued) .fresh
  (tell news (w.promises ++ made)).map fun ps => ⟨c, ps⟩

def step? (w : Switchboard) : Event → Option Switchboard
  | .controller e => (w.controller.step? e).bind w.moveTo?
  | .abandon n => do
    let p ← (← w.promises[n]?).dropWaiter
    return { w with promises := w.promises.set n p }
  | .look n => do
    let (_, p) ← (← w.promises[n]?).look
    return { w with promises := w.promises.set n p }

/-- The call stands in the table under its own id, no other call does, and nobody
has completed it. -/
def Outstanding (w : Switchboard) (n : Nat) : Prop :=
  (∃ x, w.calls.pending.filter (fun e => e.1 = UInt64.ofNat n ∨ e.2.number = n) =
    [(UInt64.ofNat n, ⟨n, x⟩)]) ∧
  (∀ d ∈ w.calls.completed, d.1 ≠ n) ∧
  ∃ p, w.promises[n]? = some p ∧ p.completerHeld = true

/-- The call has been completed exactly once and is in the table no
more. Its caller, if it is still there and has not looked yet, finds
what the call came to. -/
def Completed (w : Switchboard) (n : Nat) (o : Completion) : Prop :=
  w.calls.completed.filter (·.1 = n) = [(n, o)] ∧
  (∀ e ∈ w.calls.pending, e.2.number ≠ n) ∧
  ∃ p, w.promises[n]? = some p ∧ p.completerHeld = false ∧
    (p.waiterHeld = true → p.value = some o)

/-! ## Telling -/

/-- Calls that are told for the first time can all be told, and
others hear nothing. -/
theorem tell_eq_some {news : List (Nat × Completion)}
    {ps : List (Promise Completion)} (once : (news.map (·.1)).Nodup)
    (held : ∀ d ∈ news, ∃ p, ps[d.1]? = some p ∧ p.completerHeld = true) :
    ∃ qs, tell news ps = some qs ∧ qs.length = ps.length ∧
      (∀ n, n ∉ news.map (·.1) → qs[n]? = ps[n]?) ∧
      ∀ d ∈ news, ∃ q, qs[d.1]? = some q ∧ q.completerHeld = false ∧
        (q.waiterHeld = true → q.value = some d.2) := by
  induction news with
  | nil => exact ⟨ps, rfl, rfl, fun _ _ => rfl, by simp⟩
  | cons d news ih =>
      obtain ⟨n, o⟩ := d
      obtain ⟨first, once⟩ := List.nodup_cons.mp once
      obtain ⟨qs, told, size, others, heard⟩ :=
        ih once fun d hd => held d (.tail _ hd)
      obtain ⟨p, at_n, unused⟩ := held (n, o) (.head _)
      have at_n : qs[n]? = some p := (others n first).trans at_n
      have inside : n < qs.length := (List.getElem?_eq_some_iff.mp at_n).1
      let used : Promise Completion :=
        { p with
          value := if p.waiterHeld then some o else none, completerHeld := false }
      refine ⟨qs.set n used, ?_, by simpa using size, ?_, ?_⟩
      · simp [used, tell, told, at_n, Promise.complete, unused]
      · intro m hm
        obtain ⟨apart, hm⟩ := not_or.mp (mt List.mem_cons.mpr hm)
        rw [List.getElem?_set_ne (Ne.symm apart), others m hm]
      · intro d hd
        rcases List.mem_cons.mp hd with rfl | hd
        · exact ⟨used, List.getElem?_set_self inside, rfl,
            fun waits => if_pos waits⟩
        · have apart : n ≠ d.1 :=
            fun same => first (List.mem_map.mpr ⟨d, hd, same.symm⟩)
          rw [List.getElem?_set_ne apart]
          exact heard d hd

/-! ## The invariant -/

/-- Every call has a promise, which is unused until the call is completed
and then carries what the call came to, as long as its caller is there and
has not looked. -/
structure Kept (w : Switchboard) : Prop where
  size : w.promises.length = w.calls.issued
  unused : ∀ n < w.calls.issued, (∀ d ∈ w.calls.completed, d.1 ≠ n) →
    ∃ p, w.promises[n]? = some p ∧ p.completerHeld = true
  told : ∀ d ∈ w.calls.completed,
    ∃ p, w.promises[d.1]? = some p ∧ p.completerHeld = false ∧
      (p.waiterHeld = true → p.value = some d.2)

namespace Kept

variable {w w' : Switchboard}

theorem start : fresh.Kept :=
  ⟨rfl, by simp [fresh, calls, Controller.fresh, CallTable.empty],
  by simp [fresh, calls, Controller.fresh, CallTable.empty]⟩

/-- A caller may use its side of its promise as it likes, as long as it does not
touch the other side. -/
theorem set (h : w.Kept) {n : Nat} {p q : Promise Completion}
    (at_n : w.promises[n]? = some p) (held : q.completerHeld = p.completerHeld)
    (value : q.waiterHeld = true → p.waiterHeld = true ∧ q.value = p.value) :
    Kept { w with promises := w.promises.set n q } := by
  have inside : n < w.promises.length := (List.getElem?_eq_some_iff.mp at_n).1
  refine ⟨List.length_set.trans h.size, ?_, ?_⟩
  · intro m hm open_
    obtain ⟨r, at_m, unused⟩ := h.unused m hm open_
    by_cases same : n = m
    · subst same
      cases at_n.symm.trans at_m
      exact ⟨q, List.getElem?_set_self inside, held.trans unused⟩
    · exact ⟨r, (List.getElem?_set_ne same).trans at_m, unused⟩
  · intro d hd
    obtain ⟨r, at_d, used, heard⟩ := h.told d hd
    by_cases same : n = d.1
    · subst same
      cases at_n.symm.trans at_d
      refine ⟨q, List.getElem?_set_self inside, held.trans used, fun waits => ?_⟩
      obtain ⟨waited, kept⟩ := value waits
      exact kept.trans (heard waited)
    · exact ⟨r, (List.getElem?_set_ne same).trans at_d, used, heard⟩

/-- Whatever the controller does, its completions can be told. -/
theorem moveTo? (h : w.Kept) {c : Controller}
    (before : w.calls.completed <:+ c.calls.completed)
    (more : w.calls.issued ≤ c.calls.issued) (accounted : c.calls.Accounted) :
    ∃ w', w.moveTo? c = some w' ∧ w'.controller = c ∧ w'.Kept := by
  obtain ⟨news, split⟩ := before
  have is_news :
      c.calls.completed.take (c.calls.completed.length - w.calls.completed.length) =
        news := by
    rw [← split, List.length_append, Nat.add_sub_cancel, List.take_left']
    rfl
  have once : (c.calls.completed.map (·.1)).Nodup :=
    (List.nodup_append.mp accounted.nodup).2.1
  rw [← split, List.map_append, List.nodup_append] at once
  obtain ⟨once, -, apart⟩ := once
  -- The promises of the calls made so far, and fresh ones for the calls
  -- that are new.
  let made :=
    w.promises ++ List.replicate (c.calls.issued - w.calls.issued) Promise.fresh
  have made_size : made.length = c.calls.issued := by
    simp only [made, List.length_append, List.length_replicate, h.size]
    omega
  have unused : ∀ n < c.calls.issued, (∀ d ∈ w.calls.completed, d.1 ≠ n) →
      ∃ p, made[n]? = some p ∧ p.completerHeld = true := by
    intro n hn open_
    by_cases old : n < w.calls.issued
    · obtain ⟨p, at_n, unused⟩ := h.unused n old open_
      exact ⟨p, by rw [List.getElem?_append_left (h.size ▸ old), at_n], unused⟩
    · refine ⟨.fresh, ?_, rfl⟩
      rw [List.getElem?_append_right (by rw [h.size]; omega),
        List.getElem?_replicate, h.size, if_pos]
      omega
  have held : ∀ d ∈ news, ∃ p, made[d.1]? = some p ∧ p.completerHeld = true := by
    intro d hd
    refine unused d.1 (accounted.completed_lt (split ▸ List.mem_append_left _ hd))
      fun e he same => ?_
    exact apart d.1 (List.mem_map_of_mem hd) e.1 (List.mem_map_of_mem he) same.symm
  obtain ⟨qs, told, size, others, heard⟩ := tell_eq_some once held
  have moved : w.moveTo? c = some ⟨c, qs⟩ := by
    simp [Switchboard.moveTo?, is_news, made, told]
  refine ⟨⟨c, qs⟩, moved, rfl, size.trans made_size, ?_, ?_⟩
  · intro n hn open_
    have silent : n ∉ news.map (·.1) := by
      intro hn
      obtain ⟨d, hd, rfl⟩ := List.mem_map.mp hn
      exact open_ d (split ▸ List.mem_append_left _ hd) rfl
    obtain ⟨p, at_n, unused⟩ :=
      unused n hn fun d hd => open_ d (split ▸ List.mem_append_right _ hd)
    exact ⟨p, (others n silent).trans at_n, unused⟩
  · intro d hd
    rcases List.mem_append.mp (split.symm ▸ hd : d ∈ news ++ w.calls.completed)
      with hd | hd
    · exact heard d hd
    · have silent : d.1 ∉ news.map (·.1) := fun hn =>
        apart d.1 hn d.1 (List.mem_map_of_mem hd) rfl
      obtain ⟨p, at_d, used, value⟩ := h.told d hd
      refine ⟨p, ?_, used, value⟩
      rw [others d.1 silent,
        List.getElem?_append_left (List.getElem?_eq_some_iff.mp at_d).1, at_d]

/-- A caller who goes away leaves the other side of its promise alone. -/
theorem abandon (h : w.Kept) {n : Nat} (step : w.step? (.abandon n) = some w') :
    w'.Kept := by
  obtain ⟨p, at_n, step⟩ := Option.bind_eq_some_iff.mp step
  obtain ⟨q, gone, same⟩ := Option.bind_eq_some_iff.mp step
  cases same
  refine h.set at_n ?_ ?_ <;>
    (simp only [Promise.dropWaiter] at gone
     split at gone <;> cases gone
     simp)

/-- A caller who looks takes what it finds. -/
theorem look (h : w.Kept) {n : Nat} (step : w.step? (.look n) = some w') :
    w'.Kept := by
  obtain ⟨p, at_n, step⟩ := Option.bind_eq_some_iff.mp step
  obtain ⟨⟨found, q⟩, looked, same⟩ := Option.bind_eq_some_iff.mp step
  cases same
  refine h.set at_n ?_ ?_ <;>
    (simp only [Promise.look] at looked
     repeat' split at looked
     all_goals cases looked
     all_goals simp_all)

end Kept

/-! ## Runs -/

variable {es : List Event} {w : Switchboard}

/-- Callers leave the controller alone. -/
theorem step?_caller {w' : Switchboard} {n : Nat}
    (step : w.step? (.abandon n) = some w' ∨ w.step? (.look n) = some w') :
    w'.controller = w.controller := by
  rcases step with step | step <;>
    (obtain ⟨_, -, step⟩ := Option.bind_eq_some_iff.mp step
     obtain ⟨_, -, same⟩ := Option.bind_eq_some_iff.mp step
     cases same
     rfl)

/-- The controller of a switchboard moves by its own steps. -/
theorem step?_controller {w' : Switchboard} {e : Controller.Event}
    (step : w.step? (.controller e) = some w') :
    w.controller.step? e = some w'.controller ∧
    w.moveTo? w'.controller = some w' := by
  obtain ⟨c, moved, told⟩ := Option.bind_eq_some_iff.mp step
  obtain ⟨ps, -, rfl⟩ := Option.map_eq_some_iff.mp told
  exact ⟨moved, told⟩

/-- A step makes at most one call. -/
theorem issued_step? {w' : Switchboard} {e : Event} (step : w.step? e = some w') :
    w.calls.issued ≤ w'.calls.issued ∧ w'.calls.issued ≤ w.calls.issued + 1 := by
  cases e with
  | abandon n => simp [calls, step?_caller (.inl step)]
  | look n => simp [calls, step?_caller (.inr step)]
  | controller e => exact Controller.issued_step? (step?_controller step).1

/-- No step forgets or changes a completion. -/
theorem completed_step? {w' : Switchboard} {e : Event}
    (step : w.step? e = some w') :
    w.calls.completed <:+ w'.calls.completed := by
  cases e with
  | abandon n => simp [calls, step?_caller (.inl step)]
  | look n => simp [calls, step?_caller (.inr step)]
  | controller e => exact Controller.completed_step? (step?_controller step).1

/-- Up to 2^64 calls a run keeps account of the calls and keeps its promises. -/
theorem kept_of_run (run : es.foldlM step? fresh = some w)
    (few : w.calls.issued ≤ maxCalls) :
    w.calls.Accounted ∧ w.Kept := by
  revert few
  refine Run.induct
    (P := fun _ w => w.calls.issued ≤ maxCalls → w.calls.Accounted ∧ w.Kept)
    (fun _ => ⟨.start, .start⟩) ?_ run
  intro es w e w' _ ih step few
  obtain ⟨accounted, kept⟩ := ih ((issued_step? step).1.trans few)
  cases e with
  | abandon n =>
      refine ⟨?_, kept.abandon step⟩
      rwa [calls, step?_caller (.inl step)]
  | look n =>
      refine ⟨?_, kept.look step⟩
      rwa [calls, step?_caller (.inr step)]
  | controller e =>
      obtain ⟨moved, told⟩ := step?_controller step
      have accounted' : w'.calls.Accounted := by
        rw [calls, Controller.step?_calls moved] at few ⊢
        exact CallTable.accounted_applyAll accounted few
      obtain ⟨w'', told', -, kept⟩ :=
        kept.moveTo? (Controller.completed_step? moved)
          (Controller.issued_step? moved).1 accounted'
      cases told.symm.trans told'
      exact ⟨accounted', kept⟩

/-- What stands among the completions is completed for good. -/
theorem completed_of_mem (accounted : w.calls.Accounted) (kept : w.Kept) {n : Nat}
    {o : Completion} (mem : (n, o) ∈ w.calls.completed) : w.Completed n o := by
  have once : (w.calls.completed.map (·.1)).Nodup :=
    (List.nodup_append.mp accounted.nodup).2.1
  exact ⟨Keyed.filter_eq_singleton once mem,
    fun e he same => accounted.not_completed he mem same.symm, kept.told _ mem⟩

/-- What stands in the table is outstanding. -/
theorem outstanding_of_mem (accounted : w.calls.Accounted) (kept : w.Kept)
    (few : w.calls.issued ≤ maxCalls) {e : UInt64 × Call}
    (mem : e ∈ w.calls.pending) :
    w.Outstanding e.2.number := by
  have open_ : ∀ d ∈ w.calls.completed, d.1 ≠ e.2.number :=
    fun d => accounted.not_completed mem
  refine ⟨⟨e.2.exchange, ?_⟩, open_, kept.unused _ (accounted.pending_lt mem) open_⟩
  have numbers : (w.calls.pending.map (·.2.number)).Nodup :=
    (List.nodup_append.mp accounted.nodup).1
  -- In this table an id and a number are found in the same entries.
  have same_entry : ∀ d ∈ w.calls.pending,
      decide (d.1 = UInt64.ofNat e.2.number ∨ d.2.number = e.2.number) =
        decide (d.2.number = e.2.number) := by
    intro d hd
    refine decide_eq_decide.mpr ⟨?_, .inr⟩
    rintro (same | same)
    · rw [accounted.ids d hd] at same
      have small := (accounted.pending_lt hd).trans_le few
      exact id_inj small ((accounted.pending_lt mem).trans_le few) same
    · exact same
  rw [List.filter_congr same_entry, Keyed.filter_eq_singleton numbers mem,
    ← accounted.ids e mem]

/-- With fewer than 2^64 calls, at every moment of every run each call is in
exactly one of two situations: it is outstanding, or it has been completed
once. No step undoes or repeats a completion, and no caller keeps the
controller from taking one. -/
theorem outstanding_xor_completed (run : es.foldlM step? fresh = some w)
    (few : w.calls.issued < maxCalls) :
    (∀ n < w.calls.issued, Xor (w.Outstanding n) (∃ o, w.Completed n o)) ∧
      (∀ e w', w.step? e = some w' → ∀ n o, w.Completed n o → w'.Completed n o) ∧
      ∀ e c, w.controller.step? e = some c →
        ∃ w', w.step? (.controller e) = some w' ∧ w'.controller = c := by
  obtain ⟨accounted, kept⟩ := kept_of_run run few.le
  refine ⟨?_, ?_, ?_⟩
  · intro n hn
    rcases List.mem_append.mp
      (accounted.numbers.mem_iff.mpr (List.mem_range.mpr hn)) with mem | mem
    · obtain ⟨e, he, rfl⟩ := List.mem_map.mp mem
      refine .inl ⟨outstanding_of_mem accounted kept few.le he, ?_⟩
      rintro ⟨o, -, absent, -⟩
      exact absent e he rfl
    · obtain ⟨⟨n, o⟩, hd, rfl⟩ := List.mem_map.mp mem
      refine .inr ⟨⟨o, completed_of_mem accounted kept hd⟩, ?_⟩
      rintro ⟨-, open_, -⟩
      exact open_ _ hd rfl
  · intro e w' step n o done
    have few' : w'.calls.issued ≤ maxCalls := (issued_step? step).2.trans few
    obtain ⟨accounted', kept'⟩ := kept_of_run (Run.concat run step) few'
    have mem : (n, o) ∈ w.calls.completed :=
      List.mem_of_mem_filter (done.1 ▸ List.mem_singleton_self _)
    exact completed_of_mem accounted' kept' ((completed_step? step).subset mem)
  · intro e c moved
    have few' : c.calls.issued ≤ maxCalls :=
      (Controller.issued_step? moved).2.trans few
    have accounted' : c.calls.Accounted := by
      rw [Controller.step?_calls moved] at few' ⊢
      exact CallTable.accounted_applyAll accounted few'
    obtain ⟨w', told, same, -⟩ :=
      kept.moveTo? (Controller.completed_step? moved)
        (Controller.issued_step? moved).1 accounted'
    exact ⟨w', by rw [step?, moved]; exact told, same⟩

/-- A run in which one caller has gone away, a reply of the wrong kind has come,
and then the right one. -/
def crossed : List Event :=
  [.controller (.lookup 7), .controller .health, .controller .take, .abandon 0,
    .controller .wrote, .controller (.receive (.health (.serving 0))),
    .controller (.receive (.lookup (.found 0 "a.b"))), .controller (.lookup 8)]

/-- In that run every call is in one of the two situations. -/
theorem crossed_accounted :
    ∃ w, crossed.foldlM step? fresh = some w ∧ w.calls.issued = 3 ∧
    w.calls.issued < maxCalls ∧
    ∀ n < 3, Xor (w.Outstanding n) (∃ o, w.Completed n o) := by
  have run : crossed.foldlM step? fresh = some _ := rfl
  exact ⟨_, run, rfl, by decide, (outstanding_xor_completed run (by decide)).1⟩

end Switchboard

end ElementAgent

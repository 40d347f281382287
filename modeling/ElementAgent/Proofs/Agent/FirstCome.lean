import ElementAgent.Proofs.Agent.Accounts
import Mathlib.Data.List.Range
import Mathlib.Order.Bounds.Basic

/-!
# First come, first served

Lookups that share a number of servers: each begins at the earliest time at or
after its arrival at which all before it have begun and fewer of them are
unfinished than there are servers. Main statements:

* **lookups**: how long each of them runs, and what its reply is, for requests in
  two parts (`Setup.jobs_append`);
* **queue**: `IsFirstCome` tells for each lookup in turn when it begins
  (`IsFirstCome.concat`), and leaves one schedule only (`IsFirstCome.unique`), in
  which lookups begin in the order of their requests (`IsFirstCome.sorted`).
-/

namespace ElementAgent.Agent

/-! ## Lookups -/

/-- How long a lookup runs, and its reply. -/
structure Job where
  duration : Nat
  reply : Reply

/-- What the lookup with a number is about. -/
def Setup.job (s : Setup) (number : Nat) (id : UInt64) (pid : Pid) : Job where
  duration := s.duration (s.plan number pid)
  reply := .lookup (s.answer id pid (s.plan number pid))

/-- The lookups among requests before which `k` lookups were read. -/
def Setup.jobs (s : Setup) : (k : Nat) → List Request → List Job
  | _, [] => []
  | k, .lookup id pid :: rs => s.job k id pid :: s.jobs (k + 1) rs
  | k, .health _ :: rs => s.jobs k rs

/-- Where no lookup oversleeps the lookups are what they were due to be. -/
theorem Setup.jobs_inHindsight (s : Setup) (k : Nat) (rs : List Request) :
    (s.inHindsight []).jobs k rs = s.jobs k rs := by
  induction rs generalizing k with
  | nil => rfl
  | cons r rs ih =>
      cases r with
      | health id => exact ih k
      | lookup id pid =>
          rw [Setup.jobs, Setup.jobs, ih, List.cons.injEq]
          refine ⟨congrArg₂ Job.mk (Setup.duration_inHindsight _ _) ?_, rfl⟩
          exact congrArg Reply.lookup (s.answer_inHindsight (s.plan k pid) id pid)

def Lookup.job (s : Setup) (l : Lookup) : Job := s.job l.number l.id l.pid

variable {s : Setup} {k : Nat}

theorem Setup.length_jobs (s : Setup) (k : Nat) (rs : List Request) :
    (s.jobs k rs).length = lookupsOf rs := by
  induction rs generalizing k with
  | nil => rfl
  | cons r rs ih =>
      cases r with
      | lookup id pid =>
          rw [jobs, List.length_cons, ih, lookupsOf, Nat.add_comm]; rfl
      | health id => rw [jobs, ih, lookupsOf, Request.lookups, Nat.zero_add]

theorem Setup.jobs_append (s : Setup) (k : Nat) (rs more : List Request) :
    s.jobs k (rs ++ more) = s.jobs k rs ++ s.jobs (k + lookupsOf rs) more := by
  induction rs generalizing k with
  | nil => rfl
  | cons r rs ih =>
      have count : k + lookupsOf (r :: rs) = k + r.lookups + lookupsOf rs :=
        (Nat.add_assoc ..).symm
      cases r with
      | lookup id pid =>
          rw [List.cons_append, jobs, ih, count, jobs, List.cons_append]; rfl
      | health id => rw [List.cons_append, jobs, ih, count, jobs]; rfl

/-- The lookup behind some requests. -/
theorem Setup.getElem?_jobs (s : Setup) (dealt more : List Request) (id : UInt64)
    (pid : Pid) :
    (s.jobs 0 (dealt ++ .lookup id pid :: more))[lookupsOf dealt]? =
      some (s.job (lookupsOf dealt) id pid) := by
  rw [s.jobs_append, Nat.zero_add, ← s.length_jobs 0 dealt,
    List.getElem?_append_right (Nat.le_refl _), Nat.sub_self, s.length_jobs]
  rfl

/-! ## The queue -/

/-- When lookups that begin at the given times come to their end, and
with what reply. -/
def served (begins : List Nat) (jobs : List Job) : List (Nat × Reply) :=
  List.zipWith (fun b j => (b + j.duration, j.reply)) begins jobs

/-- A lookup may begin at a time: it has arrived, all before it have begun, and
fewer of them are unfinished than there are servers. -/
structure MayBegin (servers arrival : Nat) (begins : List Nat) (jobs : List Job)
    (time : Nat) : Prop where
  arrived : arrival ≤ time
  inTurn : ∀ b ∈ begins, b ≤ time
  idle : (served begins jobs).countP (fun x => time < x.1) < servers

/-- Each lookup begins as soon as it may. -/
def IsFirstCome (servers : Nat) (arrivals : List Nat) (jobs : List Job)
    (begins : List Nat) : Prop :=
  ∀ k b, begins[k]? = some b → ∃ arrival, arrivals[k]? = some arrival ∧
    IsLeast {time | MayBegin servers arrival (begins.take k) jobs time} b

variable {servers : Nat} {arrivals more begins begins' : List Nat}
  {jobs : List Job} {b : Nat}

theorem getElem?_served {j : Job} (begun : begins[k]? = some b)
    (next : jobs[k]? = some j) :
    (served begins jobs)[k]? = some (b + j.duration, j.reply) := by
  rw [served, List.getElem?_zipWith, begun, next]

theorem served_concat {j : Job} (next : jobs[begins.length]? = some j) :
    served (begins ++ [b]) jobs =
      served begins jobs ++ [(b + j.duration, j.reply)] := by
  induction begins generalizing jobs with
  | nil =>
      cases jobs with
      | nil => cases next
      | cons j' jobs => cases next; rfl
  | cons b' begins ih =>
      cases jobs with
      | nil => cases next
      | cons j' jobs =>
          exact congrArg (List.cons (b' + j'.duration, j'.reply)) (ih next)

theorem length_served (enough : begins.length ≤ jobs.length) :
    (served begins jobs).length = begins.length := by
  rw [served, List.length_zipWith, Nat.min_eq_left enough]

namespace IsFirstCome

theorem nil : IsFirstCome servers arrivals jobs [] := by
  intro k b none
  simp at none

/-- One more lookup begins as soon as it may. -/
theorem concat (h : IsFirstCome servers arrivals jobs begins) {arrival : Nat}
    (arrived : arrivals[begins.length]? = some arrival)
    (least : IsLeast {time | MayBegin servers arrival begins jobs time} b) :
    IsFirstCome servers arrivals jobs (begins ++ [b]) := by
  intro k c begun
  rcases Nat.lt_trichotomy k begins.length with early | rfl | late
  · rw [List.getElem?_append_left early] at begun
    rw [List.take_append_of_le_length (Nat.le_of_lt early)]
    exact h k c begun
  · rw [List.getElem?_concat_length] at begun
    cases begun
    rw [List.take_left]
    exact ⟨arrival, arrived, least⟩
  · rw [List.getElem?_eq_none (by simp; omega)] at begun
    cases begun

/-- Who arrives later does not change it. -/
theorem arrive (h : IsFirstCome servers arrivals jobs begins) (more : List Nat) :
    IsFirstCome servers (arrivals ++ more) jobs begins := by
  intro k b begun
  obtain ⟨arrival, arrived, least⟩ := h k b begun
  have early : k < arrivals.length := (List.getElem?_eq_some_iff.mp arrived).1
  exact ⟨arrival, by rw [List.getElem?_append_left early, arrived], least⟩

/-- There is one schedule. -/
theorem unique (h : IsFirstCome servers arrivals jobs begins)
    (h' : IsFirstCome servers arrivals jobs begins')
    (same : begins.length = begins'.length) : begins = begins' := by
  have agree : ∀ k, begins.take k = begins'.take k := by
    intro k
    induction k with
    | zero => rfl
    | succ k ih =>
        rw [List.take_add_one, List.take_add_one, ih]
        cases begun : begins[k]? with
        | none =>
            have beyond := List.getElem?_eq_none_iff.mp begun
            rw [List.getElem?_eq_none (same ▸ beyond)]
        | some b =>
            have bound : k < begins'.length :=
              same ▸ (List.getElem?_eq_some_iff.mp begun).1
            obtain ⟨arrival, arrived, least⟩ := h k b begun
            obtain ⟨arrival', arrived', least'⟩ :=
              h' k _ (List.getElem?_eq_getElem bound)
            rw [arrived] at arrived'
            cases arrived'
            rw [ih] at least
            rw [List.getElem?_eq_getElem bound, least.unique least']
  have whole := agree begins.length
  rwa [List.take_length, same, List.take_length] at whole

/-- Lookups begin in the order of their requests. -/
theorem sorted (h : IsFirstCome servers arrivals jobs begins) :
    begins.Pairwise (· ≤ ·) := by
  rw [List.pairwise_iff_getElem]
  intro i k boundᵢ bound before
  obtain ⟨arrival, -, may, -⟩ := h k _ (List.getElem?_eq_getElem bound)
  refine may.inTurn _ ?_
  rw [List.mem_take_iff_getElem]
  exact ⟨i, by omega, rfl⟩

end IsFirstCome

/-! ## Places in a list -/

/-- What stands at given places in a list. -/
def pick {α : Type} (xs : List α) (places : List Nat) : List α :=
  places.filterMap (xs[·]?)

/-- What comes behind does not matter for places in front of it. -/
theorem pick_append {α : Type} {xs : List α} {places : List Nat}
    (before : ∀ n ∈ places, n < xs.length)
    (ys : List α) : pick (xs ++ ys) places = pick xs places :=
  List.filterMap_congr fun n listed => List.getElem?_append_left (before n listed)

/-- All places are the list. -/
theorem pick_range {α : Type} (xs : List α) :
    pick xs (List.range xs.length) = xs := by
  induction xs using List.reverseRecOn with
  | nil => rfl
  | append_singleton xs x ih =>
      rw [pick, List.length_append, List.length_singleton, List.range_succ,
        List.filterMap_append]
      have before : (List.range xs.length).filterMap ((xs ++ [x])[·]?) =
          pick xs (List.range xs.length) :=
        pick_append (fun _ => List.mem_range.mp) [x]
      rw [before, ih]
      simp

end ElementAgent.Agent

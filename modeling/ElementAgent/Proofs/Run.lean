import ElementAgent.Agent
import ElementAgent.Controller
import Mathlib.Data.List.Induction

/-!
# Runs

Every system of this library moves by a guarded step, `σ → ε → Option σ`. A run is
a list of events, each of them open when its turn comes: the fold of the step over
the list. Main statement: what holds at the start and is kept by every step that
follows a run, holds after every run (`Run.induct`); what an event of a run brings
about, and no event undoes, holds after it (`Run.of_mem`). What the steps of a run
bring to light, one after the other, is put together by `Run.gather`; a run goes
the same way in a system that knows it from the start (`Run.foreseen`).
-/

namespace ElementAgent.Run

variable {σ ε : Type} {step : σ → ε → Option σ} {start s t : σ}
  {es more : List ε} {e : ε}

/-- A run that goes on where another ends makes one run with it. -/
theorem append (first : es.foldlM step start = some s)
    (last : more.foldlM step s = some t) :
    (es ++ more).foldlM step start = some t := by
  rw [List.foldlM_append, first]
  exact last

/-- A run and one more step are a run. -/
theorem concat (first : es.foldlM step start = some s) (last : step s e = some t) :
    (es ++ [e]).foldlM step start = some t :=
  append first (by simpa using last)

/-- The last step of a run. -/
theorem unconcat (run : (es ++ [e]).foldlM step start = some t) :
    ∃ s, es.foldlM step start = some s ∧ step s e = some t := by
  rw [List.foldlM_append] at run
  obtain ⟨s, first, last⟩ := Option.bind_eq_some_iff.mp run
  exact ⟨s, first, by simpa using last⟩

/-- Induction over runs. The step that is added may use the run before it. -/
theorem induct {P : List ε → σ → Prop} (init : P [] start)
    (keep : ∀ es s e t, es.foldlM step start = some s → P es s → step s e = some t →
      P (es ++ [e]) t) :
    ∀ {es s}, es.foldlM step start = some s → P es s := by
  intro es
  induction es using List.reverseRecOn with
  | nil =>
      intro s run
      cases run
      exact init
  | append_singleton es e ih =>
      intro t run
      obtain ⟨s, first, last⟩ := unconcat run
      exact keep es s e t first (ih first) last

/-- What an event brings about, and no event undoes, holds after every run
with that event. -/
theorem of_mem {P : σ → Prop} (brings : ∀ s t, step s e = some t → P t)
    (keeps : ∀ s e' t, step s e' = some t → P s → P t)
    (run : es.foldlM step start = some s) (listed : e ∈ es) : P s := by
  revert listed
  refine induct (P := fun es s => e ∈ es → P s) (fun never => by cases never) ?_ run
  intro es s e' t _ ih step listed
  rcases List.mem_append.mp listed with before | last
  · exact keeps s e' t step (ih before)
  · rw [List.mem_singleton.mp last] at brings
    exact brings s t step

variable {α : Type} {what : σ → ε → List α}

/-- What the steps of a run bring, one after the other. -/
def gather (step : σ → ε → Option σ) (what : σ → ε → List α) : σ → List ε → List α
  | _, [] => []
  | s, e :: es => what s e ++
    match step s e with
    | some t => gather step what t es
    | none => []

/-- One more step adds what it brings. -/
theorem gather_concat (run : es.foldlM step s = some t) :
    gather step what s (es ++ [e]) = gather step what s es ++ what t e := by
  induction es generalizing s with
  | nil =>
      cases run
      simp only [List.nil_append, gather]
      split <;> simp
  | cons e' es ih =>
      obtain ⟨r, first, rest⟩ := Option.bind_eq_some_iff.mp run
      simp only [List.cons_append, gather, first, ih rest, List.append_assoc]

variable {matters : ε → List α} {shows : σ → α → Bool}

/-- The matters that come to light in a run: those that an event is about, if they
show where it happens. -/
def shown (step : σ → ε → Option σ) (matters : ε → List α)
    (shows : σ → α → Bool) (start : σ) (es : List ε) : List α :=
  gather step (fun s e => (matters e).filter (shows s)) start es

theorem shown_concat (run : es.foldlM step s = some t) :
    shown step matters shows s (es ++ [e]) =
      shown step matters shows s es ++ (matters e).filter (shows t) :=
  gather_concat run

/-- What comes to light is what the events are about. -/
theorem shown_subset (s : σ) (es : List ε) :
    shown step matters shows s es ⊆ es.flatMap matters := by
  induction es generalizing s with
  | nil => exact List.Subset.refl _
  | cons e es ih =>
      rw [shown, gather, List.flatMap_cons]
      refine List.append_subset.mpr
        ⟨fun n listed => ?_, List.subset_append_of_subset_right _ ?_⟩
      · exact List.mem_append_left _ (List.mem_filter.mp listed).1
      · cases step s e with
        | none => exact List.nil_subset _
        | some t => exact ih t

/-- A system that knows from the start what will come to light goes the same way,
if no matter comes up twice, and its steps bring the same. -/
theorem foreseen {step' : σ → ε → Option σ} {known : List α}
    (same : ∀ s e, (∀ n ∈ matters e, n ∈ known ↔ shows s n = true) →
      step' s e = step s e)
    (run : es.foldlM step start = some s) (once : (es.flatMap matters).Nodup)
    (told : ∀ n ∈ es.flatMap matters, n ∈ known ↔
      n ∈ shown step matters shows start es) :
    es.foldlM step' start = some s ∧ ∀ (β : Type) (brings : σ → ε → List β),
      gather step' brings start es = gather step brings start es := by
  revert once told
  refine induct (P := fun es s => (es.flatMap matters).Nodup →
    (∀ n ∈ es.flatMap matters, n ∈ known ↔ n ∈ shown step matters shows start es) →
    es.foldlM step' start = some s ∧ ∀ (β : Type) (brings : σ → ε → List β),
      gather step' brings start es = gather step brings start es)
    (fun _ _ => ⟨rfl, fun _ _ => rfl⟩) ?_ run
  intro es s e t before ih last once told
  rw [List.flatMap_append, List.flatMap_singleton] at once told
  rw [shown_concat before] at told
  obtain ⟨once, -, apart⟩ := List.nodup_append.mp once
  obtain ⟨before', alike⟩ := ih once fun n earlier => by
    -- it does not come up again
    rw [told n (List.mem_append_left _ earlier), List.mem_append, or_iff_left]
    exact fun again => apart n earlier n ((List.mem_filter.mp again).1) rfl
  have last' : step' s e = some t := (same s e fun n now => by
    -- it did not come up before
    rw [told n (List.mem_append_right _ now), List.mem_append, or_iff_right,
      List.mem_filter, and_iff_right now]
    exact fun before => apart n (shown_subset start es before) n now rfl).trans last
  refine ⟨concat before' last', fun β brings => ?_⟩
  rw [gather_concat before', gather_concat before, alike β brings]

end Run

/-- A controller's run is the fold of its step. -/
theorem Controller.run?_eq_foldlM (c : Controller) (es : List Controller.Event) :
    c.run? es = es.foldlM Controller.step? c := by
  induction es generalizing c with
  | nil => rfl
  | cons e es ih =>
      rw [Controller.run?, List.foldlM_cons]
      cases c.step? e with
      | none => rfl
      | some c => exact ih c

/-- An agent's run is the fold of its step. -/
theorem Agent.run?_eq_foldlM (s : Agent.Setup) (a : Agent) (es : List Agent.Event) :
    a.run? s es = es.foldlM (Agent.step? s) a := by
  induction es generalizing a with
  | nil => rfl
  | cons e es ih =>
      rw [Agent.run?, List.foldlM_cons]
      cases a.step? s e with
      | none => rfl
      | some a => exact ih a

end ElementAgent

import ElementAgent.Proofs.Connection.Rest

/-!
# A connection in hindsight

A run on a connection is a run with an agent that knows from the start which
lookups will oversleep. Main statements: it is the same run (`run_hindsight`),
everywhere the same moves are open (`step?_inHindsight_eq_none`), and so a
connection rests where it rested (`AtRest.inHindsight`).
-/

namespace ElementAgent.Connection

open Agent (Setup)

/-- The lookup that comes to its end. -/
def Move.finished : Move → List Nat
  | .agent m => m.finished
  | .controller _ | .lookup _ | .health | .drop | .elapse _ => []

variable {s : Setup} {late : List Nat} {c c' : Connection} {m : Move}
  {ms : List Move} {up down : Nat}

theorem acts_of_step? (h : c.step? s m = some c') :
    ∃ acts : List Agent.Event, acts.foldlM (Agent.step? s) c.far.side =
      some c'.far.side ∧
      acts.flatMap Agent.Event.finished = m.finished := by
  cases m with
  | agent m =>
      obtain ⟨w, moved, rfl⟩ := Option.map_eq_some_iff.mp h
      exact AgentEnd.acts_of_step? moved
  | elapse ms =>
      cases h
      exact ⟨[.elapse ms], rfl, rfl⟩
  | controller m | lookup pid | health | drop =>
      obtain ⟨w, -, rfl⟩ := Option.map_eq_some_iff.mp h
      exact ⟨[], rfl, rfl⟩

/-- A run on a connection is a run of the agent alone, in which the same lookups
come to their ends. -/
theorem agent_of_run (run : ms.foldlM (step? s) (fresh s up down) = some c) :
    ∃ acts : List Agent.Event, acts.foldlM (Agent.step? s) (Agent.fresh s) =
      some c.far.side ∧
      acts.flatMap Agent.Event.finished = ms.flatMap Move.finished := by
  refine Run.induct (P := fun ms c => ∃ acts : List Agent.Event,
    acts.foldlM (Agent.step? s) (Agent.fresh s) = some c.far.side ∧
      acts.flatMap Agent.Event.finished =
        ms.flatMap Move.finished) ⟨[], rfl, rfl⟩ ?_ run
  intro ms c m c' _ ih step
  obtain ⟨before, first, same⟩ := ih
  obtain ⟨acts, last, one⟩ := acts_of_step? step
  refine ⟨before ++ acts, Run.append first last, ?_⟩
  rw [List.flatMap_append, List.flatMap_append, List.flatMap_singleton, same, one]

/-- A move leads to the same place in hindsight, if the lookup that it ends
oversleeps as foreseen. -/
theorem step?_inHindsight
    (told : ∀ n ∈ m.finished, n ∈ late ↔ c.far.side.oversleeps s n = true) :
    c.step? (s.inHindsight late) m = c.step? s m := by
  cases m with
  | agent m => exact congrArg (Option.map _) (AgentEnd.step?_inHindsight told)
  | controller m | lookup pid | health | drop | elapse ms => rfl

/-- Whether a move is open can be told before. -/
theorem step?_inHindsight_eq_none :
    c.step? (s.inHindsight late) m = none ↔ c.step? s m = none := by
  cases m with
  | agent m =>
      simp only [step?, Option.map_eq_none_iff]
      exact AgentEnd.step?_inHindsight_eq_none
  | controller m | lookup pid | health | drop | elapse ms => exact Iff.rfl

theorem opens_inHindsight :
    (∃ c', c.step? (s.inHindsight late) m = some c') ↔
    ∃ c', c.step? s m = some c' := by
  rw [← Option.ne_none_iff_exists', ← Option.ne_none_iff_exists', Ne, Ne,
    step?_inHindsight_eq_none]

/-- Where a connection rests it rests in hindsight. -/
theorem AtRest.inHindsight (rest : AtRest s c) : AtRest (s.inHindsight late) c := by
  intro ms c' waits
  obtain ⟨controller, agent⟩ := rest ms c' waits
  exact ⟨fun m => step?_inHindsight_eq_none.mpr (controller m),
    fun m => step?_inHindsight_eq_none.mpr (agent m)⟩

/-- The lookups that oversleep in a run. -/
def oversleptIn (s : Setup) (up down : Nat) (ms : List Move) : List Nat :=
  Run.shown (step? s) Move.finished
    (fun c => c.far.side.oversleeps s) (fresh s up down) ms

/-- A setup in hindsight of a run. -/
def hindsight (s : Setup) (up down : Nat) (ms : List Move) : Setup :=
  s.inHindsight (oversleptIn s up down ms)

instance : (hindsight s up down ms).IsDecided := Setup.isDecided_inHindsight

/-- A run is a run in hindsight. -/
theorem run_hindsight (run : ms.foldlM (step? s) (fresh s up down) = some c) :
    ms.foldlM (step? (hindsight s up down ms))
      (fresh (hindsight s up down ms) up down) = some c := by
  obtain ⟨acts, alone, same⟩ := agent_of_run run
  have once := Agent.finished_nodup_of_run alone
  exact (Run.foreseen (fun _ _ => step?_inHindsight) run (same ▸ once) fun _ _ =>
    Iff.rfl).1

end ElementAgent.Connection

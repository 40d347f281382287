import ElementAgent.Proofs.Link.Ends

/-!
# Runs in hindsight

Which lookups oversleep comes to light in the course of a run. A setup that
knows it from the start has the same run, since no lookup comes to its end
twice. Main statements:

* **agent**: no lookup comes to its end twice (`Agent.finished_nodup_of_run`), and
  a run of an agent is a run of the setup in hindsight (`Agent.run_hindsight`);
* **pipes**: a move of an agent on its pipes is a run of the agent alone
  (`AgentEnd.acts_of_step?`), is open in hindsight where it is open
  (`AgentEnd.step?_inHindsight_eq_none`), and leads to the same place as long as
  the lookups oversleep as foreseen (`AgentEnd.step?_inHindsight`).
-/

namespace ElementAgent

namespace Agent

variable {s : Setup} {a a' : Agent} {e : Event} {es : List Event} {n : Nat}

/-! ## No lookup ends twice -/

/-- The lookup with a number is over: it was given its permit, and if it is still
there it has been answered. -/
structure IsOver (a : Agent) (n : Nat) : Prop where
  admitted : n < a.admitted
  answered : ∀ l ∈ a.lookups, l.number = n → ∃ r, l.stage = .answered r

/-- A lookup that is over is not begun again. -/
theorem IsOver.step (h : a.IsOver n) (o : Orderly s a) (step : Step s a e a') :
    a'.IsOver n := by
  cases step with
  | lookup | health | undecodable | endOfStream | report | reportLate | take | wrote
  | writeFailed | writerDone | elapse => exact { h with }
  | grant holds permit =>
      refine ⟨Nat.lt_succ_of_lt h.admitted, fun l held number => ?_⟩
      rcases List.mem_append.mp held with old | new
      · exact h.answered l old number
      · -- the new lookup has a higher number
        rw [List.mem_singleton.mp new] at number
        exact absurd h.admitted (Nat.not_lt.mpr (Nat.le_of_eq number))
  | @begin l peak held waits =>
      refine ⟨h.admitted, fun m moved number => ?_⟩
      rcases mem_setStage moved with same | ⟨before, listed, named, rfl⟩
      · exact h.answered m same number
      · have one : before = l :=
          List.inj_on_of_nodup_map o.numbers listed held named
        obtain ⟨r, done⟩ := h.answered before listed number
        rw [one, waits] at done
        cases done
  | @finish l since held runs due =>
      refine ⟨h.admitted, fun m moved number => ?_⟩
      rcases mem_setStage moved with same | ⟨before, listed, named, rfl⟩
      · exact h.answered m same number
      · exact ⟨_, rfl⟩
  | hand | handLate =>
      exact ⟨h.admitted, fun m kept => h.answered m (List.mem_of_mem_filter kept)⟩

/-- A lookup that comes to its end was not over, and is over then. -/
theorem isOver_of_finished (o : Orderly s a) (step : Step s a e a')
    (ends : n ∈ e.finished) :
    ¬ a.IsOver n ∧ a'.IsOver n := by
  cases step with
  | @finish l since held runs due =>
      rw [List.mem_singleton.mp ends]
      refine ⟨fun earlier => ?_, o.admitted l held, fun m moved number => ?_⟩
      · obtain ⟨r, done⟩ := earlier.answered l held rfl
        rw [runs] at done
        cases done
      · -- the lookup of that number is the one that was moved
        obtain ⟨before, listed, rfl⟩ := List.mem_map.mp moved
        split_ifs at number ⊢ with moves
        · exact ⟨_, rfl⟩
        · exact absurd (by simpa using number) moves
  | _ => cases ends

/-- No lookup comes to its end twice. -/
theorem finished_nodup_of_run (run : es.foldlM (step? s) (fresh s) = some a) :
    (es.flatMap Event.finished).Nodup := by
  suffices once : (es.flatMap Event.finished).Nodup ∧
      ∀ n ∈ es.flatMap Event.finished, a.IsOver n from
    once.1
  refine Run.induct (P := fun es a => (es.flatMap Event.finished).Nodup ∧
    ∀ n ∈ es.flatMap Event.finished, a.IsOver n) ⟨List.nodup_nil, by simp⟩ ?_ run
  intro es a e a' run ⟨once, over_⟩ step
  have o := orderly_of_run run
  have act := step_of_step? step
  rw [List.flatMap_append, List.flatMap_singleton]
  refine ⟨List.nodup_append.mpr ⟨once, ?_, ?_⟩, fun n listed => ?_⟩
  · cases e <;> simp [Event.finished]
  · rintro n earlier m now rfl
    exact (isOver_of_finished o act now).1 (over_ n earlier)
  · rcases List.mem_append.mp listed with earlier | now
    · exact (over_ n earlier).step o act
    · exact (isOver_of_finished o act now).2

/-! ## An agent's run in hindsight -/

/-- The lookups that oversleep in a run. -/
def oversleptIn (s : Setup) (es : List Event) : List Nat :=
  Run.shown (step? s) Event.finished (oversleeps s) (fresh s) es

/-- A setup in hindsight of a run of the agent. -/
def hindsight (s : Setup) (es : List Event) : Setup :=
  s.inHindsight (oversleptIn s es)

instance : (hindsight s es).IsDecided := Setup.isDecided_inHindsight

/-- A run is a run in hindsight, and its steps bring the same. -/
theorem run_hindsight (run : es.foldlM (step? s) (fresh s) = some a) :
    es.foldlM (step? (hindsight s es)) (fresh (hindsight s es)) = some a ∧
      ∀ (α : Type) (brings : Agent → Event → List α),
        Run.gather (step? (hindsight s es)) brings (fresh (hindsight s es)) es =
          Run.gather (step? s) brings (fresh s) es := by
  exact Run.foreseen (fun _ _ => step?_inHindsight) run (finished_nodup_of_run run)
    fun _ _ => Iff.rfl

end Agent

/-! ## An agent on pipes -/

namespace AgentEnd

open Agent (Setup)

variable {s : Setup} {late : List Nat} {w w' : AgentEnd} {m : Move}

/-- The lookup that comes to its end. -/
def Move.finished : Move → List Nat
  | .finish n => [n]
  | _ => []

theorem acts_of_act? {e : Agent.Event} (h : act? s w e = some w') :
    [e].foldlM (Agent.step? s) w.side = some w'.side := by
  obtain ⟨a, act, rfl⟩ := act?_eq_some h
  simpa using act

/-- A move is a run of the agent alone, in which the same lookup
comes to its end. -/
theorem acts_of_step? (h : w.step? s m = some w') :
    ∃ acts : List Agent.Event, acts.foldlM (Agent.step? s) w.side = some w'.side ∧
      acts.flatMap Agent.Event.finished = m.finished := by
  cases m with
  | pull n =>
      simp only [step?] at h
      split_ifs at h
      obtain ⟨bs, rest, -, -, rfl⟩ := Wired.pull?_eq_some h
      exact ⟨[], rfl, rfl⟩
  | push n =>
      obtain ⟨bs, rest, -, -, -, rfl⟩ := Wired.push?_eq_some h
      exact ⟨[], rfl, rfl⟩
  | release =>
      simp only [step?] at h
      split_ifs at h
      cases h
      exact ⟨[], rfl, rfl⟩
  | grant | report | begin | finish | hand | writerDone =>
      exact ⟨_, acts_of_act? h, rfl⟩
  | read =>
      simp only [step?] at h
      split_ifs at h
      split at h
      case h_1 found | h_2 found | h_3 found =>
        exact ⟨_, Wired.found?_side found ▸ acts_of_act? h, rfl⟩
      case h_4 => cases h
  | flush =>
      simp only [step?] at h
      split_ifs at h
      exact ⟨_, acts_of_act? h, rfl⟩
  | fail =>
      simp only [step?] at h
      split_ifs at h
      obtain ⟨w₁, failed, rfl⟩ := Option.map_eq_some_iff.mp h
      have alone := acts_of_act? failed
      exact ⟨_, alone, rfl⟩
  | take =>
      obtain ⟨w₁, taken, h⟩ := Option.bind_eq_some_iff.mp h
      have first := acts_of_act? taken
      split at h
      case h_2 => cases h
      split at h
      case h_1 =>
          cases h
          exact ⟨_, first, rfl⟩
      case h_2 =>
          -- the reply fits into no frame
          exact ⟨[.take] ++ [.writeFailed], Run.append first (acts_of_act? h), rfl⟩

/-- A move leads to the same place in hindsight, if the lookup that it ends
oversleeps as foreseen. -/
theorem step?_inHindsight
    (told : ∀ n ∈ m.finished, n ∈ late ↔ w.side.oversleeps s n = true) :
    w.step? (s.inHindsight late) m = w.step? s m := by
  cases m with
  | finish n =>
      simp only [step?, act?]
      rw [Agent.step?_inHindsight (e := .finish n) told]
  | _ => rfl

/-- Whether a move is open can be told before. -/
theorem step?_inHindsight_eq_none :
    w.step? (s.inHindsight late) m = none ↔ w.step? s m = none := by
  cases m with
  | finish n =>
      simp only [step?, act?, Option.map_eq_none_iff]
      exact Agent.step?_inHindsight_eq_none
  | _ => exact Iff.rfl

end AgentEnd

end ElementAgent

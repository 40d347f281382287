import ElementAgent.Agent
import ElementAgent.Proofs.Run

/-!
# Answers in hindsight

What a lookup is answered depends on when it is looked at: a result that comes
after the timeout is still the answer if it is there before the lookup has
been given up. A setup in which no resolver comes late is decided from the
start. Main statements:

* **decided**: in a setup in which every resolver answers in time or not at all,
  it does not matter when a lookup that is due is looked at
  (`Plan.answer_eq_of_decided`);
* **hindsight**: every setup can be read as a decided one, given the lookups that
  will oversleep (`Setup.inHindsight`), with the same times (`due_inHindsight`)
  and the same steps of an agent, as long as it is those lookups that oversleep
  (`step?_inHindsight`).
-/

namespace ElementAgent

open Agent (Setup Lookup)

/-! ## Decided setups -/

/-- The answer to a lookup that is looked at as soon as it is due. -/
def Agent.Setup.answer (s : Setup) (id : UInt64) (pid : Pid) (p : Plan) :
    LookupReply :=
  p.answer (s.duration p) id pid

/-- Every resolver answers in time or not at all. -/
class Agent.Setup.IsDecided (s : Setup) : Prop where
  in_time : ∀ n pid d, (s.plan n pid).delay = some d → d ≤ s.timeout

/-- In a decided setup a lookup that is due has its answer, however long nobody
looks at it. -/
theorem Plan.answer_eq_of_decided (s : Setup) [decided : s.IsDecided]
    {n elapsed : Nat} {pid : Pid} (due : s.duration (s.plan n pid) ≤ elapsed)
    (id : UInt64) :
    (s.plan n pid).answer elapsed id pid = s.answer id pid (s.plan n pid) := by
  unfold Setup.answer Plan.answer
  unfold Setup.duration at due ⊢
  cases delay : (s.plan n pid).delay with
  | none => rfl
  | some d =>
      have in_time := decided.in_time n pid d delay
      simp only [delay, Nat.min_eq_left in_time] at due ⊢
      rw [if_pos due, if_pos (Nat.le_refl d)]

/-! ## Hindsight -/

/-- A lookup that is looked at when it has run for a time finds a result that came
after the timeout. -/
def Plan.oversleeps (p : Plan) (timeout elapsed : Nat) : Bool :=
  match p.delay with
  | some d => timeout < d && d ≤ elapsed
  | none => false

/-- The plan as it turns out: a result that comes after the timeout comes with it
if it is found, and never if it is not. -/
def Plan.inHindsight (p : Plan) (timeout : Nat) (overslept : Bool) : Plan where
  delay := p.delay.bind fun d =>
    if d ≤ timeout then some d else if overslept then some timeout else none
  result := p.result

/-- The setup as it turns out if the lookups with the numbers `late` oversleep. -/
def Agent.Setup.inHindsight (s : Setup) (late : List Nat) : Setup :=
  { s with
    plan := fun n pid => (s.plan n pid).inHindsight s.timeout (late.contains n) }

variable {s : Setup} {late : List Nat}

instance Agent.Setup.isDecided_inHindsight : (s.inHindsight late).IsDecided where
  in_time n pid d delay := by
    obtain ⟨d', -, found⟩ := Option.bind_eq_some_iff.mp delay
    show d ≤ s.timeout
    split_ifs at found with in_time overslept
    · exact Option.some.inj found ▸ in_time
    · exact Option.some.inj found ▸ Nat.le_refl _

/-- Hindsight adds nothing to what was decided from the start. -/
theorem Agent.Setup.inHindsight_eq [decided : s.IsDecided] :
    s.inHindsight late = s := by
  have same : ∀ n pid, (s.plan n pid).inHindsight s.timeout (late.contains n) =
      s.plan n pid := by
    intro n pid
    have in_time := decided.in_time n pid
    revert in_time
    rcases s.plan n pid with ⟨_ | d, result⟩ <;> intro in_time
    · rfl
    · simp [Plan.inHindsight, in_time d rfl]
  simp only [inHindsight, same]

/-- Hindsight changes no times. -/
theorem Agent.Setup.duration_inHindsight (p : Plan) (overslept : Bool) :
    (s.inHindsight late).duration (p.inHindsight s.timeout overslept) =
      s.duration p := by
  rcases p with ⟨_ | d, result⟩
  · rfl
  · by_cases in_time : d ≤ s.timeout
    · simp [Plan.inHindsight, Setup.duration, inHindsight, in_time]
    · cases overslept <;>
        simp [Plan.inHindsight, Setup.duration, inHindsight, in_time,
          Nat.min_eq_right (Nat.le_of_not_le in_time)]

theorem Agent.Setup.due_inHindsight (l : Lookup) (since : Nat) :
    (s.inHindsight late).due l since = s.due l since :=
  congrArg (since + ·) (duration_inHindsight _ _)

/-- A lookup that is due has the answer that hindsight gives it, if it oversleeps
as that says. -/
theorem Plan.answer_inHindsight {p : Plan} {overslept : Bool} {elapsed : Nat}
    (due : s.duration p ≤ elapsed)
    (told : overslept = p.oversleeps s.timeout elapsed) (id : UInt64)
    (pid : Pid) :
    (p.inHindsight s.timeout overslept).answer elapsed id pid =
      p.answer elapsed id pid := by
  subst told
  rcases p with ⟨_ | d, result⟩
  · rfl
  · by_cases in_time : d ≤ s.timeout
    · simp [Plan.inHindsight, Plan.answer, in_time]
    · have passed : s.timeout ≤ elapsed := by
        simp only [Setup.duration] at due
        omega
      by_cases found : d ≤ elapsed
      · simp [Plan.inHindsight, Plan.answer, Plan.oversleeps, in_time,
          Nat.lt_of_not_le in_time, found, passed]
      · simp [Plan.inHindsight, Plan.answer, Plan.oversleeps, in_time, found]

/-- A lookup that does not oversleep has the answer that is due. -/
theorem Agent.Setup.answer_inHindsight (p : Plan) (id : UInt64) (pid : Pid) :
    (s.inHindsight late).answer id pid (p.inHindsight s.timeout false) =
      s.answer id pid p := by
  have awake : p.oversleeps s.timeout (s.duration p) = false := by
    rcases p with ⟨_ | d, result⟩
    · rfl
    · by_cases in_time : d ≤ s.timeout
      · simp [Plan.oversleeps, Nat.not_lt_of_le in_time]
      · simp [Plan.oversleeps, duration,
          Nat.min_eq_right (Nat.le_of_not_le in_time), in_time]
  unfold answer
  rw [duration_inHindsight]
  exact Plan.answer_inHindsight (Nat.le_refl _) awake.symm id pid

namespace Agent

variable {a : Agent} {e : Event}

/-- The lookup that comes to its end. -/
def Event.finished : Event → List Nat
  | .finish n => [n]
  | _ => []

/-- A lookup that is looked at now finds a result that came after the timeout. -/
def oversleeps (s : Setup) (a : Agent) (n : Nat) : Bool :=
  match a.find? n with
  | some ⟨_, _, pid, .running since⟩ =>
      (s.plan n pid).oversleeps s.timeout (a.now - since)
  | _ => false

/-- An agent takes the same steps in hindsight. -/
theorem step?_inHindsight
    (told : ∀ n ∈ e.finished, n ∈ late ↔ a.oversleeps s n = true) :
    a.step? (s.inHindsight late) e = a.step? s e := by
  cases e with
  | finish n =>
      have told := told n (List.mem_singleton_self n)
      unfold oversleeps at told
      simp only [step?]
      cases found : a.find? n with
      | none => rfl
      | some l =>
          have number : l.number = n := by simpa using List.find?_some found
          obtain ⟨number, id, pid, stage⟩ := l
          cases stage with
          | waiting | answered => rfl
          | running since =>
              subst number
              simp only [found, Setup.due_inHindsight] at told ⊢
              split_ifs with due
              · have slept : late.contains number =
                    (s.plan number pid).oversleeps s.timeout (a.now - since) := by
                  rw [Bool.eq_iff_iff, List.contains_iff_mem, told]
                have run : s.duration (s.plan number pid) ≤ a.now - since :=
                  Nat.le_sub_of_add_le' due
                have same := Plan.answer_inHindsight run slept id pid
                exact congrArg (fun r => some (a.setStage number (.answered r)))
                  same
              · rfl
  | _ => rfl

/-- Whether a step is open can be told before. -/
theorem step?_inHindsight_eq_none :
    a.step? (s.inHindsight late) e = none ↔ a.step? s e = none := by
  cases e with
  | finish n =>
      simp only [step?]
      cases a.find? n with
      | none => exact Iff.rfl
      | some l =>
          obtain ⟨number, id, pid, stage⟩ := l
          cases stage with
          | waiting | answered => exact Iff.rfl
          | running since =>
              simp only [Setup.due_inHindsight]
              split <;> simp
  | _ => exact Iff.rfl

end Agent

end ElementAgent

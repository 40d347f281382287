import ElementAgent.Proofs.Agent.Talk

/-!
# Who gets a permit

A permit is handed on when a lookup has come to its end. Main statements:

* **agent**: after every run the lookups that were given a permit are those that
  came to their end and those that have no answer yet (`Agent.admitted_of_run`),
  and the latter are no more than there are permits;
* **pipes**: a talk is a run of the agent alone, so the same holds in every talk
  (`Talk.admitted_of_run`).
-/

namespace ElementAgent

namespace Agent

/-- The lookup has no answer yet. -/
def Lookup.isOpen (l : Lookup) : Bool :=
  match l.stage with
  | .answered _ => false
  | .waiting | .running _ => true

theorem Lookup.isOpen_eq_false_iff {l : Lookup} :
    l.isOpen = false ↔ ∃ r, l.stage = .answered r := by
  cases stage : l.stage <;> simp [isOpen, stage]

/-- How many lookups have a permit and no answer. -/
def unanswered (a : Agent) : Nat := a.lookups.countP Lookup.isOpen

variable {s : Setup} {a a' : Agent} {e : Event} {es : List Event} {l : Lookup}

theorem unanswered_release (o : Orderly s a) (held : l ∈ a.lookups) :
    a.unanswered = (a.release l.number).unanswered + if l.isOpen then 1 else 0 := by
  rw [unanswered, (perm_release o.numbers held).countP_eq,
    List.countP_cons, unanswered]

/-- A lookup that is moved to a stage counts as it stands there. -/
theorem unanswered_setStage (o : Orderly s a) (held : l ∈ a.lookups)
    (stage : Stage) :
    (a.setStage l.number stage).unanswered =
      (a.release l.number).unanswered + if Lookup.isOpen { l with stage } then 1
        else 0 := by
  rw [unanswered, (perm_setStage o.numbers held stage).countP_eq,
    List.countP_cons, unanswered]

theorem unanswered_le (o : Orderly s a) : a.unanswered ≤ s.limit := by
  have some : a.unanswered ≤ a.lookups.length := List.countP_le_length
  have permits := o.permits
  omega

/-- A lookup that comes to its end is answered; nothing else
changes the balance. -/
theorem admitted_step (o : Orderly s a) (step : Step s a e a') {n : Nat}
    (balance : a.admitted = n + a.unanswered) :
    a'.admitted = n + e.finished.length + a'.unanswered := by
  cases step with
  | lookup | health | undecodable | endOfStream | report | reportLate | take | wrote
  | writeFailed | writerDone | elapse => exact balance
  | grant holds permit =>
      simp only [unanswered, Event.finished, List.length_nil, List.countP_append,
        List.countP_singleton, Lookup.isOpen, if_true]
      rw [balance, unanswered]
      omega
  | @begin l peak held waits =>
      have before := unanswered_release o held
      have after := unanswered_setStage o held (.running a.now)
      simp only [Lookup.isOpen, waits, if_true] at before after
      show a.admitted = n + 0 + (a.setStage l.number (.running a.now)).unanswered
      omega
  | @finish l since held runs due =>
      have before := unanswered_release o held
      have after := unanswered_setStage o held
        (.answered ((s.plan l.number l.pid).answer (a.now - since) l.id l.pid))
      simp only [Lookup.isOpen, runs, if_true, Bool.false_eq_true,
        if_false] at before after
      simp only [Event.finished, List.length_singleton, setStage_admitted]
      omega
  | @hand l r held done _ _ | @handLate l r held done _ =>
      have before := unanswered_release o held
      simp only [Lookup.isOpen, done, Bool.false_eq_true, if_false] at before
      show a.admitted = n + 0 + (a.release l.number).unanswered
      omega

/-- The lookups that were given a permit came to their end, or
have no answer yet. -/
theorem admitted_of_run (run : es.foldlM (step? s) (fresh s) = some a) :
    a.admitted = (es.flatMap Event.finished).length + a.unanswered := by
  refine Run.induct (P := fun es a =>
    a.admitted = (es.flatMap Event.finished).length + a.unanswered) rfl ?_ run
  intro es a e a' run balance step
  rw [List.flatMap_append, List.flatMap_singleton, List.length_append]
  exact admitted_step (orderly_of_run run) (step_of_step? step) balance

end Agent

/-- The move is a lookup that comes to its end. -/
def AgentEnd.Move.isFinish : Move → Bool
  | .finish _ => true
  | _ => false

namespace Talk

open Agent (Setup)

/-- A lookup comes to its end. -/
def Event.isFinish : Event → Bool
  | .move m => m.isFinish
  | .elapse _ | .write _ | .close | .read _ => false

variable {s : Setup} {t : Talk} {es : List Event} {inbound outbound : Nat}

theorem length_finished (es : List Event) :
    (es.flatMap Event.finished).length = es.countP Event.isFinish := by
  induction es with
  | nil => rfl
  | cons e es ih =>
      have one : e.finished.length = if e.isFinish then 1 else 0 := by
        cases e with
        | move m => cases m <;> rfl
        | elapse ms | write bs | close | read n => rfl
      rw [List.flatMap_cons, List.length_append, List.countP_cons, ih, one,
        Nat.add_comm]

/-- The lookups that were given a permit came to their end in the run, or
have no answer yet. -/
theorem admitted_of_run
    (run : es.foldlM (step? s) (fresh s inbound outbound) = some t) :
    t.wired.side.admitted = es.countP Event.isFinish + t.wired.side.unanswered := by
  obtain ⟨acts, alone, same⟩ := acts_of_run run
  rw [← length_finished, ← same]
  exact Agent.admitted_of_run alone

end Talk

end ElementAgent

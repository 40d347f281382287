import ElementAgent.Proofs.Agent.Clock

/-!
# Turns of lookups

What an event of a talk means for lookups: it gives out a permit, moves a lookup
on, passes time, or is aside from all that (`Beat`, `beat_of_step?`). Main
statements on their replies:

* on a simulated clock no lookup oversleeps (`IsInTime.oversleeps`), so that all
  goes as in a decided setup (`IsInTime.clocked_inHindsight`);
* what was written is never taken back (`answers_step`), and was queued before
  (`answers_prefix`);
* aside from the turns of lookups no reply to them is queued
  (`Said.produced_aside`), and in a talk that has settled all that were queued
  have been written (`IsSettled.produced_eq`).
-/

namespace ElementAgent

/-- The event gives out no permit, moves no lookup on and passes no time. -/
def Agent.Event.isAside : Agent.Event → Bool
  | .grant | .begin _ | .finish _ | .hand _ | .elapse _ => false
  | .receive _ | .report | .take | .wrote | .writeFailed | .writerDone => true

theorem Agent.Step.aside {s : Agent.Setup} {a a' : Agent} {e : Agent.Event}
    (step : Agent.Step s a e a') (aside : e.isAside = true) :
    a'.lookups = a.lookups ∧ a'.admitted = a.admitted ∧ a'.now = a.now := by
  cases step with
  | grant | begin | finish | hand | handLate | elapse => cases aside
  | _ => exact ⟨rfl, rfl, rfl⟩

namespace AgentEnd

open Agent (Setup)

/-- The move gives out a permit or moves a lookup on. -/
inductive IsTurn : Move → Agent.Event → Prop
  | grant : IsTurn .grant .grant
  | begin {n} : IsTurn (.begin n) (.begin n)
  | finish {n} : IsTurn (.finish n) (.finish n)
  | hand {n} : IsTurn (.hand n) (.hand n)

/-- The move neither gives out a permit nor moves a lookup on. -/
def Move.isAside : Move → Bool
  | .grant | .begin _ | .finish _ | .hand _ => false
  | .pull _ | .read | .report | .take | .push
      _ | .fail | .flush | .writerDone | .release => true

variable {s : Setup} {w w' : AgentEnd} {m : Move}

theorem aside_of_act? {e : Agent.Event} (h : act? s w e = some w')
    (aside : e.isAside = true) :
    w'.side.lookups = w.side.lookups ∧ w'.side.admitted = w.side.admitted ∧
      w'.side.now = w.side.now := by
  obtain ⟨a, act, rfl⟩ := act?_eq_some h
  exact (Agent.step_of_step? act).aside aside

theorem aside_of_step? (h : w.step? s m = some w') (aside : m.isAside = true) :
    w'.side.lookups = w.side.lookups ∧ w'.side.admitted = w.side.admitted ∧
      w'.side.now = w.side.now := by
  cases m with
  | grant | begin | finish | hand => cases aside
  | pull n =>
      simp only [step?] at h
      split_ifs at h
      obtain ⟨bs, rest, -, -, rfl⟩ := Wired.pull?_eq_some h
      exact ⟨rfl, rfl, rfl⟩
  | push n =>
      obtain ⟨bs, rest, -, -, -, rfl⟩ := Wired.push?_eq_some h
      exact ⟨rfl, rfl, rfl⟩
  | release =>
      simp only [step?] at h
      split_ifs at h
      cases h
      exact ⟨rfl, rfl, rfl⟩
  | report | writerDone => exact aside_of_act? h rfl
  | read =>
      simp only [step?] at h
      split_ifs at h
      split at h
      case h_4 => cases h
      case h_1 found | h_2 found | h_3 found =>
          rw [← Wired.found?_side found]
          exact aside_of_act? h rfl
  | flush =>
      simp only [step?] at h
      split_ifs at h
      exact aside_of_act? h rfl
  | fail =>
      simp only [step?] at h
      split_ifs at h
      obtain ⟨w₁, failed, rfl⟩ := Option.map_eq_some_iff.mp h
      have same := aside_of_act? failed rfl
      exact same
  | take =>
      obtain ⟨w₁, taken, h⟩ := Option.bind_eq_some_iff.mp h
      have first := aside_of_act? taken rfl
      split at h
      case h_2 => cases h
      split at h
      case h_1 => cases h; exact first
      case h_2 =>
          -- the reply fits into no frame
          obtain ⟨lookups, admitted, now⟩ := aside_of_act? h rfl
          exact ⟨lookups.trans first.1, admitted.trans first.2.1,
            now.trans first.2.2⟩

end AgentEnd

namespace Talk

open Agent (Setup)
open AgentEnd (Fits IsTurn)
open Wire (frames encodeReply decodeReply)

variable {s : Setup} {t t' : Talk} {e : Event} {asked : List Request}
  {out : List Reply}

/-! ## What an event means for lookups -/

/-- The event gives out no permit, moves no lookup on and passes no time. -/
def Event.isAside : Event → Bool
  | .move m => m.isAside
  | .elapse _ => false
  | .write _ | .close | .read _ => true

/-- An agent's turn with a lookup, time, or something else. -/
inductive Beat (s : Setup) (t : Talk) : Event → Talk → Prop
  | turn {m ev a} (turn : IsTurn m ev) (act : Agent.Step s t.wired.side ev a) :
      Beat s t (.move m) { t with wired := { t.wired with side := a } }
  | elapse {ms} : Beat s t (.elapse ms) { t with
      wired :=
        { t.wired with
          side := { t.wired.side with now := t.wired.side.now + ms } } }
  | aside {ev t'} (aside : ev.isAside = true)
      (lookups : t'.wired.side.lookups = t.wired.side.lookups)
      (admitted : t'.wired.side.admitted = t.wired.side.admitted)
      (now : t'.wired.side.now = t.wired.side.now) : Beat s t ev t'

theorem beat_of_step? (h : t.step? s e = some t') : Beat s t e t' := by
  cases e with
  | move m =>
      obtain ⟨w, moved, rfl⟩ := Option.map_eq_some_iff.mp h
      by_cases aside : m.isAside = true
      · obtain ⟨lookups, admitted, now⟩ := AgentEnd.aside_of_step? moved aside
        exact .aside aside lookups admitted now
      · cases m with
        | grant | begin | finish | hand =>
            obtain ⟨a, act, rfl⟩ := AgentEnd.act?_eq_some moved
            exact .turn (by constructor) (Agent.step_of_step? act)
        | _ => exact absurd rfl aside
  | elapse ms =>
      cases h
      exact .elapse
  | write bs =>
      simp only [step?] at h
      split_ifs at h
      obtain ⟨p, -, rfl⟩ := Option.map_eq_some_iff.mp h
      exact .aside rfl rfl rfl rfl
  | close =>
      cases h
      exact .aside rfl rfl rfl rfl
  | read n =>
      obtain ⟨⟨bs, p⟩, -, rfl⟩ := Option.map_eq_some_iff.mp h
      exact .aside rfl rfl rfl rfl

/-! ## Nobody oversleeps -/

/-- No lookup that runs is past the time at which it is due. -/
def IsInTime (s : Setup) (t : Talk) : Prop :=
  ∀ l ∈ t.wired.side.lookups, ∀ since, l.stage = .running since →
    t.wired.side.now ≤ s.due l since

theorem isInTime_fresh (s : Setup) (inbound outbound : Nat) :
    IsInTime s (fresh s inbound outbound) := by
  intro l held
  cases held

/-- On a simulated clock time does not pass any lookup that is due. -/
theorem IsInTime.step (h : IsInTime s t) (clocked : clocked? s t e = some t') :
    IsInTime s t' := by
  obtain ⟨timely, step⟩ := clocked?_eq_some.mp clocked
  cases beat_of_step? step with
  | aside _ lookups _ now =>
      intro l held
      rw [lookups] at held
      rw [now]
      exact h l held
  | elapse => exact AgentEnd.le_nextDue_iff.mp timely.2
  | turn turn act =>
      intro m moved since runs
      cases turn with
      | grant =>
          cases act with
          | grant =>
              rcases List.mem_append.mp moved with old | new
              · exact h m old since runs
              · rw [List.mem_singleton.mp new] at runs
                cases runs
      | begin =>
          cases act with
          | begin held waits =>
              rcases Agent.mem_setStage moved with same | ⟨before, -, -, rfl⟩
              · exact h m same since runs
              · -- it begins now
                cases runs
                exact Nat.le_add_right _ _
      | finish =>
          cases act with
          | finish held _ _ =>
              rcases Agent.mem_setStage moved with same | ⟨before, -, -, rfl⟩
              · exact h m same since runs
              · cases runs
      | hand =>
          cases act with
          | hand | handLate => exact h m (List.mem_of_mem_filter moved) since runs

/-- So no lookup oversleeps. -/
theorem IsInTime.oversleeps (h : IsInTime s t) (n : Nat) :
    t.wired.side.oversleeps s n = false := by
  unfold Agent.oversleeps
  split
  case h_2 => rfl
  case h_1 id pid since found =>
      obtain ⟨held, rfl⟩ := Agent.find?_eq_some found
      have due := h _ held since rfl
      unfold Setup.due Setup.duration at due
      unfold Plan.oversleeps
      split
      case h_2 => rfl
      case h_1 d delay =>
          simp only [delay] at due
          simp only [Bool.and_eq_false_iff, decide_eq_false_iff_not]
          omega

/-- On a simulated clock hindsight knows of no lookup that will oversleep. -/
theorem IsInTime.clocked_inHindsight (h : IsInTime s t) :
    clocked? (s.inHindsight []) t e = clocked? s t e := by
  have timely : IsTimely (s.inHindsight []) t e ↔ IsTimely s t e := by
    cases e with
    | move m | write bs | close | read n => exact Iff.rfl
    | elapse ms =>
        simp only [IsTimely, AgentEnd.le_nextDue_iff, Setup.due_inHindsight,
          isSettled_inHindsight]
  have same : t.step? (s.inHindsight []) e = t.step? s e :=
    step?_inHindsight fun n _ => by simp [h.oversleeps n]
  unfold clocked?
  simp only [timely, same]

/-! ## What is written -/

/-- The replies to lookups among those that the agent has written. -/
def answers (t : Talk) : List Reply := t.replies.filter fun r => !r.isReport

/-- The replies to lookups that have been queued: those that the writer has taken,
and those in the queue. -/
def produced (t : Talk) : List Reply :=
  (Wire.messages decodeReply (t.written ++ t.wired.sending) ++
    t.wired.side.queue).filter fun r => !r.isReport

/-- What is written has been queued. -/
theorem answers_prefix (t : Talk) : t.answers <+: t.produced :=
  ((Wire.messages_prefix _ _ _).trans (List.prefix_append _ _)).filter _

/-- What was written is never taken back. -/
theorem written_step (sound : t.wired.splitter.IsSound)
    (step : t.step? s e = some t') :
    t.written <+: t'.written := by
  cases e with
  | move m =>
      obtain ⟨w, moved, rfl⟩ := Option.map_eq_some_iff.mp step
      cases AgentEnd.step_of_step? sound moved with
      | push =>
          rw [written, written, ← List.append_assoc]
          exact List.prefix_append _ _
      | _ => exact List.prefix_rfl
  | elapse ms | close =>
      cases step
      exact List.prefix_rfl
  | write bs =>
      simp only [step?] at step
      split_ifs at step
      obtain ⟨p, -, rfl⟩ := Option.map_eq_some_iff.mp step
      exact List.prefix_rfl
  | read n =>
      obtain ⟨⟨bs, p⟩, took, rfl⟩ := Option.map_eq_some_iff.mp step
      unfold Pipe.take? at took
      split_ifs at took
      cases took
      simp [written]

theorem answers_step (sound : t.wired.splitter.IsSound)
    (step : t.step? s e = some t') :
    t.answers <+: t'.answers := by
  obtain ⟨more, all⟩ := written_step sound step
  rw [answers, answers, replies, replies, ← all]
  exact (Wire.messages_prefix _ _ _).filter _

namespace Said

theorem produced_eq (h : Said s t asked out)
    (fits : ∀ r ∈ s.replies 0 t.requests, Fits r) :
    t.produced = (out ++ t.wired.side.queue).filter fun r => !r.isReport := by
  rw [produced, h.messages_taken fits]

/-- A reply that the writer takes has been queued before. -/
theorem produced_take (h : Said s t asked out)
    (fits : ∀ r ∈ s.replies 0 t.requests, Fits r) {r : Reply}
    {rest : List Reply} (free : t.wired.side.writing = .idle)
    (next : t.wired.side.queue = r :: rest) :
    Talk.produced { t with wired := { t.wired with
      side := { t.wired.side with writing := .busy r, queue := rest }
      sending := Wire.frame (encodeReply r) } } = t.produced := by
  have silent : t.wired.sending = [] :=
    h.books.silent fun q busy => by simp [free] at busy
  have bytes : t.written ++ Wire.frame (encodeReply r) =
      frames encodeReply (out ++ [r]) := by
    have writing := h.writing
    rw [silent, List.append_nil] at writing
    rw [Wire.frames_append, ← writing]
    simp [frames]
  have short : ∀ q ∈ out ++ [r], Fits q := by
    intro q taken
    refine fits q (h.owed.subset ?_)
    rw [next]
    simpa [or_assoc] using Or.inl (List.mem_append.mp taken)
  have taken : Wire.messages decodeReply (t.written ++ Wire.frame (encodeReply r)) =
      out ++ [r] := by
    rw [bytes, messages_replies short]
  rw [h.produced_eq fits, next]
  show ((Wire.messages decodeReply (t.written ++ Wire.frame (encodeReply r)) ++
    rest).filter _) = _
  rw [taken, List.append_assoc]
  rfl

/-- Nothing is queued for lookups aside from their turns. -/
theorem produced_aside (h : Said s t asked out)
    (fits : ∀ r ∈ s.replies 0 t.requests, Fits r)
    (step : t.step? s e = some t') (aside : e.isAside = true)
    (lookups : t'.wired.side.lookups = t.wired.side.lookups) :
    t'.produced = t.produced := by
  cases e with
  | elapse ms => cases aside
  | write bs =>
      simp only [step?] at step
      split_ifs at step
      obtain ⟨p, -, rfl⟩ := Option.map_eq_some_iff.mp step
      rfl
  | close =>
      cases step
      rfl
  | read n =>
      obtain ⟨⟨bs, p⟩, took, rfl⟩ := Option.map_eq_some_iff.mp step
      unfold Pipe.take? at took
      split_ifs at took
      cases took
      simp [produced, written]
  | move m =>
      obtain ⟨w, moved, rfl⟩ := Option.map_eq_some_iff.mp step
      cases AgentEnd.step_of_step? h.books.sound moved with
      | pull | release | flush => rfl
      | request _ _ act | undecodable _ _ act | endOfStream _ _ act =>
          cases act <;> rfl
      | inner inner act =>
          cases act with
          | @hand l r held _ _ _ =>
              -- the lookup would be gone
              have shorter :=
                (Agent.perm_release h.books.orderly.numbers held).length_eq
              have same := congrArg List.length lookups
              simp only [List.length_cons] at shorter same
              omega
          | report => simp [produced, written, Reply.isReport]
          | take | wrote | writeFailed | lookup | health | undecodable | endOfStream =>
              cases inner
          | elapse => cases inner
          | _ => rfl
      | take free next => exact h.produced_take fits free next
      | oversize free next long =>
          have short :=
            h.queue_fits fits _ (by rw [next]; exact List.mem_cons_self ..)
          exact absurd short (Nat.not_le.mpr long)
      | push bytes =>
          simp [produced, written, bytes]
      | fail gone =>
          rw [h.listens] at gone
          cases gone

end Said

/-- All that was queued was written. -/
theorem IsSettled.produced_eq (settled : IsSettled s t) (said : Said s t asked out)
    (fits : ∀ r ∈ s.replies 0 t.requests, Fits r)
    (wide : 0 < t.wired.outbound.capacity) :
    t.produced = t.answers := by
  obtain ⟨sent, empty, -⟩ := settled.idle said fits wide
  rw [produced, sent, empty, List.append_nil, List.append_nil]
  rfl

end Talk

end ElementAgent

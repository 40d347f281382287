import ElementAgent.Proofs.Agent.Books

/-!
# An agent and whoever talks to it

The far end of an agent's connection writes any bytes at any time, in pieces of
its own choice, closes its direction when it likes, and reads replies when it
likes. It goes on holding the end that it reads from. Main statements:

* **hindsight**: a talk is a talk with an agent that knows from the start which
  lookups will oversleep (`run_hindsight`);
* **replies**: when the agent has finished with the connection, it has written
  the replies to the requests in front of the first fault, or of the end, each of
  them once, and nothing else (`one_reply_per_request`). This is so in every
  order of moves of the agent's tasks, of time and of the far end, if the replies
  fit into frames.
-/

namespace ElementAgent

/-- An agent and a far end. -/
structure Talk where
  wired : AgentEnd
  /-- What the far end has written. -/
  sent : List UInt8
  /-- What the far end has read. -/
  heard : List UInt8

namespace Talk

open Agent (Setup)
open AgentEnd (Books Fits Intake Turn)
open Wire (frame frames encodeRequest encodeReply decodeRequest decodeReply)

def fresh (s : Setup) (inbound outbound : Nat) : Talk :=
  ⟨{ Endpoint.fresh (Agent.fresh s) with
      inbound := .fresh inbound, outbound := .fresh outbound }, [], []⟩

inductive Event where
  /-- One of the agent's tasks moves. -/
  | move (m : AgentEnd.Move)
  | elapse (ms : Nat)
  | write (bs : List UInt8)
  | close
  | read (n : Nat)

def step? (s : Setup) (t : Talk) : Event → Option Talk
  | .move m => (t.wired.step? s m).map fun wired => { t with wired }
  | .elapse ms =>
      (AgentEnd.act? s t.wired (.elapse ms)).map fun wired => { t with wired }
  | .write bs =>
    if t.wired.inbound.writerHeld then
      (t.wired.inbound.put? bs).map fun inbound =>
        { t with wired := { t.wired with inbound }, sent := t.sent ++ bs }
    else none
  | .close =>
    some { t with wired :=
      { t.wired with inbound := { t.wired.inbound with writerHeld := false } } }
  | .read n =>
    (t.wired.outbound.take? n).map fun (bs, outbound) =>
      { t with wired := { t.wired with outbound }, heard := t.heard ++ bs }

/-- What the agent has written. -/
def written (t : Talk) : List UInt8 := t.heard ++ t.wired.outbound.bytes

/-- The requests in what the far end has written, up to the first fault. -/
def requests (t : Talk) : List Request := Wire.messages decodeRequest t.sent

/-- The replies in what the agent has written. -/
def replies (t : Talk) : List Reply := Wire.messages decodeReply t.written

/-! ## The course of a talk -/

/-- What has been said, against the books of the agent. -/
structure Said (s : Setup) (t : Talk) (asked : List Request)
    (out : List Reply) : Prop where
  books : Books s t.wired asked out
  /-- The requests that were read come first in what was sent, whatever
  will be sent. -/
  reading : t.wired.side.reading ≠ .ended → ∀ more,
    Wire.messages decodeRequest (t.sent ++ more) =
      asked ++ Wire.messages decodeRequest
        (t.wired.undecoded ++ t.wired.inbound.bytes ++ more)
  /-- Once reading has ended they are all: a fault hides what comes, or nothing
  more can come. -/
  stopped : t.wired.side.reading = .ended →
    (∀ more, Wire.messages decodeRequest (t.sent ++ more) = asked) ∨
      t.requests = asked ∧ t.wired.inbound.writerHeld = false
  writing : t.written ++ t.wired.sending = frames encodeReply out
  listens : t.wired.outbound.readerHeld = true

namespace Said

variable {s : Setup} {t : Talk} {asked : List Request} {out : List Reply}

theorem start (s : Setup) (inbound outbound : Nat) :
    Said s (fresh s inbound outbound) [] [] := by
  refine ⟨.start s _ _, fun _ more => rfl, ?_, rfl, rfl⟩
  intro never
  cases never

/-- A reader that has ended has read all requests. -/
theorem requests_of_ended (h : Said s t asked out)
    (ended : t.wired.side.reading = .ended) :
    t.requests = asked := by
  rcases h.stopped ended with all | ⟨all, -⟩
  · have now := all []
    rwa [List.append_nil] at now
  · exact all

/-- What was read is part of what was sent. -/
theorem asked_prefix (h : Said s t asked out) : asked <+: t.requests := by
  by_cases ended : t.wired.side.reading = .ended
  · rw [h.requests_of_ended ended]
  · have now := h.reading ended []
    rw [List.append_nil] at now
    rw [requests, now]
    exact List.prefix_append _ _

/-- What the writer may take fits into a frame. -/
theorem queue_fits (h : Said s t asked out)
    (fits : ∀ r ∈ s.replies 0 t.requests, Fits r) :
    ∀ r ∈ t.wired.side.queue, Fits r := by
  intro r queued
  obtain ⟨more, all⟩ := h.asked_prefix
  refine fits r ?_
  rw [← all, s.replies_append]
  exact List.mem_append_left _ (h.books.queued queued)

/-- What was taken and what is in the queue is owed. -/
theorem owed (h : Said s t asked out) :
    (out ++ t.wired.side.queue).Subperm (s.replies 0 t.requests) := by
  obtain ⟨more, all⟩ := h.asked_prefix
  have read : (out ++ t.wired.side.queue).Subperm (s.replies 0 asked) := by
    refine List.Subperm.trans ?_ h.books.accounts.replies.symm.subperm
    rw [List.append_assoc (out ++ _)]
    exact (List.sublist_append_left _ _).subperm
  rw [← all, s.replies_append]
  exact read.trans (List.sublist_append_left _ _).subperm

/-- What a move of the agent reads and takes goes into the books of the talk. -/
theorem turn (h : Said s t asked out) {w : AgentEnd} {read : List Request}
    {taken : List Reply} (turn : Turn s t.wired w asked read out taken) :
    Said s { t with wired := w } (asked ++ read) (out ++ taken) := by
  have intake := turn.intake
  have writing : t.heard ++ w.outbound.bytes ++ w.sending =
      frames encodeReply (out ++ taken) := by
    have before := h.writing
    rw [written, List.append_assoc] at before
    rw [Wire.frames_append, ← before, List.append_assoc, turn.bytes]
    simp only [List.append_assoc]
  refine ⟨turn.books, ?_, ?_, writing, turn.listens⟩
  · intro goes more
    cases intake with
    | kept bytes same =>
        show _ = _ ++ Wire.messages _ (w.undecoded ++ w.inbound.bytes ++ more)
        rw [bytes, List.append_nil]
        exact h.reading (fun ended => goes (same.mpr ended)) more
    | @next r ready _ finds bytes =>
        cases finds with
        | message whole back =>
            have before := h.reading (by simp [ready]) more
            show _ = _ ++ Wire.messages _
              (w.splitter.owed w.buffer ++ w.inbound.bytes ++ more)
            rw [before, bytes, List.append_assoc, List.append_assoc,
              List.append_assoc,
              Wire.messages_of_front_body (Wire.front_append_of_body whole _), back]
            rfl
    | stop _ ended => exact absurd ended goes
  · intro ended
    cases intake with
    | kept bytes same =>
        rw [List.append_nil]
        rcases h.stopped (same.mp ended) with all | ⟨all, closed⟩
        · exact .inl all
        · exact .inr ⟨all, turn.writer.trans closed⟩
    | next _ goes => exact absurd ended goes
    | @stop what ready _ finds amiss =>
        rw [List.append_nil]
        have before := h.reading (by simp [ready])
        cases finds with
        | message => exact absurd rfl (amiss _)
        | fault _ hidden =>
            refine .inl fun more => ?_
            rw [before, List.append_assoc, hidden, List.append_nil]
        | leftover closed nothing | endOfStream closed nothing =>
            obtain ⟨empty, gone⟩ := Bool.and_eq_true_iff.mp closed
            have now := before []
            rw [List.isEmpty_iff.mp empty] at now
            simp only [List.append_nil, nothing] at now
            refine .inr ⟨now, ?_⟩
            show w.inbound.writerHeld = false
            rw [turn.writer]
            simpa using gone

theorem move [s.IsDecided] (h : Said s t asked out)
    (fits : ∀ r ∈ s.replies 0 t.requests, Fits r)
    {w : AgentEnd} (step : AgentEnd.Step s t.wired w) :
    ∃ asked out, Said s { t with wired := w } asked out := by
  obtain ⟨read, taken, turn⟩ := h.books.step step h.listens (h.queue_fits fits)
  exact ⟨_, _, h.turn turn⟩

/-- Time, and what the far end does, change nothing in the books. -/
theorem outside (h : Said s t asked out) {e : Event} {t' : Talk}
    (other : ∀ m, e ≠ .move m)
    (step : t.step? s e = some t') : Said s t' asked out := by
  cases e with
  | move m => exact absurd rfl (other m)
  | elapse ms =>
      cases step
      exact { h with books := h.books.elapse ms }
  | write bs =>
      simp only [step?] at step
      split_ifs at step with held
      obtain ⟨p, put, rfl⟩ := Option.map_eq_some_iff.mp step
      unfold Pipe.put? at put
      split_ifs at put
      cases put
      refine { h with books := h.books.rewire _ _, reading := ?_, stopped := ?_ }
      · intro goes more
        have before := h.reading goes (bs ++ more)
        simpa only [Endpoint.undecoded, List.append_assoc] using before
      · intro ended
        rcases h.stopped ended with all | ⟨all, closed⟩
        · refine .inl fun more => ?_
          rw [List.append_assoc]
          exact all (bs ++ more)
        · -- nobody writes into a closed direction
          rw [held] at closed
          cases closed
  | close =>
      cases step
      refine { h with books := h.books.rewire _ _, stopped := ?_ }
      intro ended
      rcases h.stopped ended with all | ⟨all, closed⟩
      · exact .inl all
      · exact .inr ⟨all, rfl⟩
  | read n =>
      obtain ⟨⟨bs, p⟩, took, rfl⟩ := Option.map_eq_some_iff.mp step
      unfold Pipe.take? at took
      split_ifs at took
      cases took
      refine { h with books := h.books.rewire _ _, writing := ?_ }
      rw [← h.writing]
      simp [written]

theorem step [s.IsDecided] (h : Said s t asked out)
    (fits : ∀ r ∈ s.replies 0 t.requests, Fits r)
    {e : Event} {t' : Talk} (step : t.step? s e = some t') :
    ∃ asked out, Said s t' asked out := by
  cases e with
  | move m =>
      obtain ⟨w, moved, rfl⟩ := Option.map_eq_some_iff.mp step
      exact h.move fits (AgentEnd.step_of_step? h.books.sound moved)
  | elapse ms | write bs | close | read n =>
      exact ⟨asked, out, h.outside (fun _ => Event.noConfusion) step⟩

end Said

/-- What was sent is never taken back. -/
theorem requests_step {s : Setup} {t t' : Talk} {e : Event}
    (h : t.step? s e = some t') :
    t.requests <+: t'.requests := by
  cases e with
  | write bs =>
      simp only [step?] at h
      split_ifs at h
      obtain ⟨p, -, rfl⟩ := Option.map_eq_some_iff.mp h
      exact Wire.messages_prefix _ _ _
  | move m | elapse ms =>
      simp only [step?] at h
      obtain ⟨w, -, rfl⟩ := Option.map_eq_some_iff.mp h
      exact List.prefix_rfl
  | close =>
      cases h
      exact List.prefix_rfl
  | read n =>
      obtain ⟨out, -, rfl⟩ := Option.map_eq_some_iff.mp h
      exact List.prefix_rfl

/-- Where the replies to some requests fit into frames, so do those to
the first of them. -/
theorem fits_of_prefix {s : Setup} {rs more : List Request} (first : rs <+: more)
    (fits : ∀ r ∈ s.replies 0 more, Fits r) : ∀ r ∈ s.replies 0 rs, Fits r := by
  intro r owed
  obtain ⟨rest, rfl⟩ := first
  refine fits r ?_
  rw [s.replies_append]
  exact List.mem_append_left _ owed

/-- Where the replies fit into frames, they did before. -/
theorem fits_step {s : Setup} {t t' : Talk} {e : Event} (h : t.step? s e = some t')
    (fits : ∀ r ∈ s.replies 0 t'.requests, Fits r) :
    ∀ r ∈ s.replies 0 t.requests, Fits r :=
  fits_of_prefix (requests_step h) fits

/-- Every run of a decided setup keeps account of what is said, as long as the
replies fit into frames. -/
theorem said_of_run {s : Setup} [s.IsDecided] {inbound outbound : Nat}
    {es : List Event} {t : Talk}
    (run : es.foldlM (step? s) (fresh s inbound outbound) = some t)
    (fits : ∀ r ∈ s.replies 0 t.requests, Fits r) :
    ∃ asked out, Said s t asked out := by
  revert fits
  refine Run.induct (P := fun _ t => (∀ r ∈ s.replies 0 t.requests, Fits r) →
    ∃ asked out, Said s t asked out)
      (fun _ => ⟨[], [], .start s inbound outbound⟩) ?_ run
  intro es t e t' _ ih step fits
  have earlier := fits_step step fits
  obtain ⟨asked, out, said⟩ := ih earlier
  exact said.step earlier step

/-- Replies that fit into frames are read back from them. -/
theorem messages_replies {out : List Reply} (fits : ∀ r ∈ out, Fits r) :
    Wire.messages decodeReply (frames encodeReply out) = out := by
  have readable : ∀ r ∈ out, Fits r ∧ decodeReply (encodeReply r) = .ok r :=
    fun r listed => ⟨fits r listed, Wire.decodeReply_encodeReply (fits r listed)⟩
  have back := Wire.messages_frames [] readable
  rwa [List.append_nil, Wire.messages_nil, List.append_nil] at back

/-- Replies that were written in frames into which they fit are the replies. -/
theorem replies_of_written {t : Talk} {out : List Reply}
    (bytes : t.written = frames encodeReply out)
    (fits : ∀ r ∈ out, Fits r) : t.replies = out := by
  rw [replies, bytes, messages_replies fits]

/-- What an agent that has finished owes, it has written. -/
theorem Said.served {s : Setup} {t : Talk} {asked : List Request} {out : List Reply}
    (h : Said s t asked out) (served : t.wired.side.isServed = true) :
    t.written = frames encodeReply out ∧ (s.replies 0 t.requests).Perm out := by
  obtain ⟨read, wrote⟩ : t.wired.side.reading = .ended ∧
    t.wired.side.writing = .ended := by
    simpa [Agent.isServed] using served
  have silent : t.wired.sending = [] := h.books.silent (by simp [wrote])
  have writing := h.writing
  rw [silent, List.append_nil] at writing
  refine ⟨writing, ?_⟩
  rw [h.requests_of_ended read]
  exact h.books.accounts.served wrote

/-! ## In hindsight -/

/-- The lookup that comes to its end. -/
def Event.finished : Event → List Nat
  | .move m => m.finished
  | .elapse _ | .write _ | .close | .read _ => []

section Hindsight

variable {s : Setup} {late : List Nat} {t t' : Talk} {e : Event} {es : List Event}
  {inbound outbound : Nat}

theorem acts_of_step? (h : t.step? s e = some t') :
    ∃ acts : List Agent.Event, acts.foldlM (Agent.step? s) t.wired.side =
      some t'.wired.side ∧
      acts.flatMap Agent.Event.finished = e.finished := by
  cases e with
  | move m =>
      obtain ⟨w, moved, rfl⟩ := Option.map_eq_some_iff.mp h
      exact AgentEnd.acts_of_step? moved
  | elapse ms =>
      cases h
      exact ⟨[.elapse ms], rfl, rfl⟩
  | write bs =>
      simp only [step?] at h
      split_ifs at h
      obtain ⟨p, -, rfl⟩ := Option.map_eq_some_iff.mp h
      exact ⟨[], rfl, rfl⟩
  | close =>
      cases h
      exact ⟨[], rfl, rfl⟩
  | read n =>
      obtain ⟨⟨bs, p⟩, -, rfl⟩ := Option.map_eq_some_iff.mp h
      exact ⟨[], rfl, rfl⟩

/-- A talk is a run of the agent alone, in which the same lookups
come to their ends. -/
theorem acts_of_run
    (run : es.foldlM (step? s) (fresh s inbound outbound) = some t) :
    ∃ acts : List Agent.Event, acts.foldlM (Agent.step? s) (Agent.fresh s) =
      some t.wired.side ∧
      acts.flatMap Agent.Event.finished = es.flatMap Event.finished := by
  refine Run.induct (P := fun es t => ∃ acts : List Agent.Event,
    acts.foldlM (Agent.step? s) (Agent.fresh s) = some t.wired.side ∧
      acts.flatMap Agent.Event.finished =
        es.flatMap Event.finished) ⟨[], rfl, rfl⟩ ?_ run
  intro es t e t' _ ih step
  obtain ⟨before, first, same⟩ := ih
  obtain ⟨acts, last, one⟩ := acts_of_step? step
  refine ⟨before ++ acts, Run.append first last, ?_⟩
  rw [List.flatMap_append, List.flatMap_append, List.flatMap_singleton, same, one]

/-- An event leads to the same place in hindsight, if the lookup that it ends
oversleeps as foreseen. -/
theorem step?_inHindsight
    (told : ∀ n ∈ e.finished, n ∈ late ↔ t.wired.side.oversleeps s n = true) :
    t.step? (s.inHindsight late) e = t.step? s e := by
  cases e with
  | move m => exact congrArg (Option.map _) (AgentEnd.step?_inHindsight told)
  | elapse ms | write bs | close | read n => rfl

/-- The lookups that oversleep in a talk. -/
def oversleptIn (s : Setup) (inbound outbound : Nat) (es : List Event) : List Nat :=
  Run.shown (step? s) Event.finished
    (fun t => t.wired.side.oversleeps s) (fresh s inbound outbound) es

/-- A setup in hindsight of a talk. -/
def hindsight (s : Setup) (inbound outbound : Nat) (es : List Event) : Setup :=
  s.inHindsight (oversleptIn s inbound outbound es)

instance : (hindsight s inbound outbound es).IsDecided :=
  Setup.isDecided_inHindsight

/-- What was decided from the start is so in hindsight. -/
theorem hindsight_of_decided [s.IsDecided] : hindsight s inbound outbound es = s :=
  Setup.inHindsight_eq

/-- A talk is a talk in hindsight. -/
theorem run_hindsight
    (run : es.foldlM (step? s) (fresh s inbound outbound) = some t) :
    es.foldlM (step? (hindsight s inbound outbound es))
      (fresh (hindsight s inbound outbound es) inbound outbound) = some t := by
  obtain ⟨acts, alone, same⟩ := acts_of_run run
  have once := Agent.finished_nodup_of_run alone
  exact (Run.foreseen (fun _ _ => step?_inHindsight) run (same ▸ once) fun _ _ =>
    Iff.rfl).1

end Hindsight

/-! ## One reply each -/

/-- When an agent has finished with a connection, what it has written are the
replies to the requests in front of the first fault or the end, each of them once,
of the kinds and with the ids of the requests. -/
theorem one_reply_per_request {s : Setup} {inbound outbound : Nat}
    {es : List Event} {t : Talk}
    (run : es.foldlM (step? s) (fresh s inbound outbound) = some t)
    (fits : ∀ r ∈ (hindsight s inbound outbound es).replies 0 t.requests, Fits r)
    (served : t.wired.side.isServed = true) :
    t.written = frames encodeReply t.replies ∧
      t.replies.Perm ((hindsight s inbound outbound es).replies 0 t.requests) ∧
      (t.replies.map fun r => (r.exchange, r.id)).Perm
        (t.requests.map fun r => (r.exchange, r.id)) := by
  obtain ⟨asked, out, said⟩ := said_of_run (run_hindsight run) fits
  obtain ⟨bytes, owed⟩ := said.served served
  rw [replies_of_written bytes fun r taken => fits r (owed.mem_iff.mpr taken)]
  refine ⟨bytes, owed.symm, ?_⟩
  rw [← Setup.replies_kinds _ 0 t.requests]
  exact owed.symm.map _

/-- One lookup at a time; process 1 takes longer than the agent waits. -/
def narrow : Setup :=
  .of 1 20 fun _ pid => ⟨some (if pid = 1 then 30 else 5), .ok "app"⟩

/-- Three requests under one id, a body that cannot be read, and a
request behind it. -/
def hastyBytes : List UInt8 :=
  frames encodeRequest [.lookup 7 1, .health 7, .lookup 7 2] ++
    frame [0xc1] ++ frame (encodeRequest (.health 8))

/-- A far end that writes all at once and closes; reading stops while both lookups
are unanswered. -/
def hasty : List Event :=
  [.write hastyBytes, .close, .move (.pull 30), .move .read, .move .grant,
    .move (.begin 0), .move (.pull 59), .move .read, .move .report, .move .read,
    .move .take, .move (.push 20), .read 20, .elapse 20, .move (.finish 0),
    .move (.hand 0), .move .grant, .move (.push 21), .move .flush, .move .take,
    .move (.push 86), .move (.begin 1), .move .flush, .move .read, .elapse 5,
    .move (.finish 1), .move (.hand 1), .move .take, .read 100, .move (.push 41),
    .move .flush, .move .writerDone, .move .release]

/-- In that run the three requests have their replies and the fourth has none. -/
theorem hasty_answered :
    ∃ t, hasty.foldlM (step? narrow) (fresh narrow 200 200) = some t ∧
    t.wired.side.isServed = true ∧
    t.requests = [.lookup 7 1, .health 7, .lookup 7 2] ∧
    t.replies.Perm
      [.lookup (.failed 7 (.timeout 1)), .health (.serving 7),
        .lookup (.found 7 "app")] := by
  have ends : (hasty.foldlM (step? narrow) (fresh narrow 200 200)).any (fun t =>
      t.wired.side.isServed && t.requests =
        [.lookup 7 1, .health 7, .lookup 7 2]) = true := by
    decide +kernel
  obtain ⟨t, run, ends⟩ := (Option.any_eq_true _ _).mp ends
  obtain ⟨served, asked⟩ : _ ∧
    t.requests = [.lookup 7 1, .health 7, .lookup 7 2] := by
    simpa using ends
  have fits : ∀ r ∈ (hindsight narrow 200 200 hasty).replies 0 t.requests,
      Fits r := by
    rw [asked]
    decide +kernel
  have answered := (one_reply_per_request run fits served).2.1
  rw [asked] at answered
  exact ⟨t, run, served, asked, answered.trans (by decide +kernel)⟩

end Talk

end ElementAgent

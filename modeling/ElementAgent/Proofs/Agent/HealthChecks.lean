import ElementAgent.Proofs.Agent.Permits
import ElementAgent.Proofs.Agent.Still
import ElementAgent.Proofs.Agent.Work

/-!
# Health checks beside lookups that do not end

The reader answers health checks itself, but it reads no further while it holds a
lookup that has no permit. So a health check waits for other lookups to end where
there are more lookups in front of it than permits, and only there. Main
statements, for an agent whose replies are read:

* **too far**: no report is written on a health check with more lookups in front
  of it than there are permits and lookups that have ended
  (`Said.reports_prefix`);
* **within reach**: where nothing can happen but that time passes, that a lookup
  ends or that the far end writes, all other reports have been written
  (`Said.reports_of_quiet`);
* **progress**: what happens in no time brings the agent nearer to its end
  (`Said.nearer_of_instant`), so a talk in which something can happen until a goal
  is reached comes to that goal (`Said.comes_to`), and it becomes quiet without
  time and without a lookup that ends (`Said.comes_to_quiet`).

Together they tell which reports are written without waiting for a lookup
(`reports_prompt`).
-/

namespace ElementAgent.Talk

open Agent (Setup)
open AgentEnd (Fits IsNearer IsStill)
open Wire (frames encodeRequest decodeReply)

variable {s : Setup} {t t' : Talk} {e : Event} {es : List Event}
  {asked : List Request} {out : List Reply} {inbound outbound n : Nat}

/-- No lookup comes to its end, no time passes, and the far end writes nothing. -/
def Event.isPrompt : Event → Bool
  | .move m => !m.isFinish
  | .read _ => true
  | .elapse _ | .write _ | .close => false

/-- No time passes, and the far end writes nothing. -/
def Event.isInstant : Event → Bool
  | .move _ | .read _ => true
  | .elapse _ | .write _ | .close => false

theorem Event.isInstant_of_isPrompt (prompt : e.isPrompt = true) :
    e.isInstant = true := by
  cases e with
  | move m | read n => rfl
  | elapse ms | write bs | close => cases prompt

/-- Nothing prompt is left to happen. -/
structure IsQuiet (s : Setup) (t : Talk) : Prop where
  still : IsStill s t.wired
  heard : t.wired.outbound.bytes = []

/-! ## How far the reader comes -/

namespace Said

/-- The reader has dealt with the requests in front of what it holds, and has
queued the reports on them. -/
theorem dealt (h : Said s t asked out) :
    ∃ dealt, asked = dealt ++ t.wired.side.reading.holds ∧
      lookupsOf dealt = t.wired.side.admitted ∧
      (out ++ t.wired.side.queue).filter Reply.isReport = reportsOf dealt := by
  obtain ⟨dealt, all, queued⟩ := h.books.order
  refine ⟨dealt, all, ?_, queued⟩
  have lookups := h.books.accounts.lookups
  rw [all, lookupsOf_append] at lookups
  omega

/-- What the writer has taken is read back from its frames. -/
theorem messages_taken (h : Said s t asked out)
    (fits : ∀ r ∈ s.replies 0 t.requests, Fits r) :
    Wire.messages decodeReply (t.written ++ t.wired.sending) = out := by
  rw [h.writing]
  apply messages_replies
  intro r taken
  exact fits r (h.owed.subset (List.mem_append_left _ taken))

/-- A reader that waits, where no task can move, has read all requests. -/
theorem requests_of_ready (h : Said s t asked out) (still : IsStill s t.wired)
    (ready : t.wired.side.reading = .ready) : t.requests = asked := by
  have goes : t.wired.side.reading ≠ .ended := by simp [ready]
  have now := h.reading goes []
  rwa [List.append_nil, List.append_nil, still.heard ready, List.append_nil,
    Wire.messages_of_front_more (still.no_request h.books ready),
    List.append_nil] at now

/-- The reports that were written are the first of those within reach. -/
theorem reports_prefix (h : Said s t asked out)
    (fits : ∀ r ∈ s.replies 0 t.requests, Fits r)
    (balance : t.wired.side.admitted = n + t.wired.side.unanswered) :
    t.replies.filter Reply.isReport <+: reportsWithin (s.limit + n) t.requests := by
  obtain ⟨dealt, all, count, queued⟩ := h.dealt
  obtain ⟨rest, sent⟩ := h.asked_prefix
  have few : lookupsOf dealt ≤ s.limit + n := by
    have bound := Agent.unanswered_le h.books.orderly
    omega
  have taken : t.replies <+: out := by
    rw [← h.messages_taken fits]
    exact Wire.messages_prefix _ _ _
  rw [← sent, all, List.append_assoc, reportsWithin_append few, ← queued,
    List.filter_append]
  exact ((taken.filter _).trans (List.prefix_append _ _)).trans
    (List.prefix_append _ _)

/-- Where nothing prompt is left to happen, all reports within
reach were written. -/
theorem reports_of_quiet (h : Said s t asked out)
    (fits : ∀ r ∈ s.replies 0 t.requests, Fits r)
    (wide : 0 < t.wired.outbound.capacity)
    (balance : t.wired.side.admitted = n + t.wired.side.unanswered)
    (quiet : IsQuiet s t) :
    t.replies.filter Reply.isReport = reportsWithin (s.limit + n) t.requests := by
  obtain ⟨still, heard⟩ := quiet
  obtain ⟨sent, empty⟩ :=
    still.written h.books (h.queue_fits fits) h.listens wide heard
  obtain ⟨dealt, all, count, queued⟩ := h.dealt
  have told : t.replies.filter Reply.isReport = reportsOf dealt := by
    have taken := h.messages_taken fits
    rw [sent, List.append_nil] at taken
    rw [← queued, empty, List.append_nil, ← taken]
    rfl
  have bound := Agent.unanswered_le h.books.orderly
  rw [told]
  rcases still.reading empty with ready | ended | ⟨id, pid, holds, none_free⟩
  · have requests := h.requests_of_ready still ready
    rw [all, ready, Agent.Reading.holds, List.append_nil] at requests
    rw [requests, reportsWithin_eq (by omega)]
  · have requests := h.requests_of_ended ended
    rw [all, ended, Agent.Reading.holds, List.append_nil] at requests
    rw [requests, reportsWithin_eq (by omega)]
  · -- all permits are held by lookups that run, and the reader holds one lookup more
    obtain ⟨rest, more⟩ := h.asked_prefix
    have permits := h.books.orderly.permits
    have running : t.wired.side.unanswered = t.wired.side.lookups.length := by
      apply List.countP_eq_length.mpr
      intro l held
      obtain ⟨since, runs⟩ := still.running h.books empty held
      simp [Agent.Lookup.isOpen, runs]
    have reach : s.limit + n = lookupsOf dealt := by omega
    rw [← more, all, holds, Agent.Reading.holds, List.append_assoc,
      List.singleton_append, reach, reportsWithin_lookup]

end Said

/-! ## What stays as it is -/

/-- The pipe to the far end stays as wide as it is. -/
theorem capacity_step (sound : t.wired.splitter.IsSound)
    (step : t.step? s e = some t') :
    t'.wired.outbound.capacity = t.wired.outbound.capacity := by
  cases e with
  | move m =>
      obtain ⟨w, moved, rfl⟩ := Option.map_eq_some_iff.mp step
      cases AgentEnd.step_of_step? sound moved <;> rfl
  | elapse ms | close =>
      cases step
      rfl
  | write bs =>
      simp only [step?] at step
      split_ifs at step
      obtain ⟨p, -, rfl⟩ := Option.map_eq_some_iff.mp step
      rfl
  | read n =>
      obtain ⟨⟨bs, p⟩, took, rfl⟩ := Option.map_eq_some_iff.mp step
      unfold Pipe.take? at took
      split_ifs at took
      cases took
      rfl

theorem capacity_of_run [s.IsDecided]
    (run : es.foldlM (step? s) (fresh s inbound outbound) = some t)
    (fits : ∀ r ∈ s.replies 0 t.requests, Fits r) :
    t.wired.outbound.capacity = outbound := by
  revert fits
  refine Run.induct (P := fun _ t => (∀ r ∈ s.replies 0 t.requests, Fits r) →
    t.wired.outbound.capacity = outbound) (fun _ => rfl) ?_ run
  intro es t e t' run ih step fits
  have earlier := fits_step step fits
  obtain ⟨asked, out, said⟩ := said_of_run run earlier
  exact (capacity_step said.books.sound step).trans (ih earlier)

/-- What happens in no time adds nothing to what was sent. -/
theorem instant_step (sound : t.wired.splitter.IsSound)
    (instant : e.isInstant = true) (step : t.step? s e = some t') :
    t'.sent = t.sent ∧ t'.wired.side.now = t.wired.side.now := by
  cases e with
  | move m =>
      obtain ⟨w, moved, rfl⟩ := Option.map_eq_some_iff.mp step
      refine ⟨rfl, ?_⟩
      show w.side.now = t.wired.side.now
      cases AgentEnd.step_of_step? sound moved with
      | request _ _ act | undecodable _ _ act | endOfStream _ _ act | fail _ act =>
          cases act <;> rfl
      | inner inner act => cases inner <;> cases act <;> rfl
      | _ => rfl
  | read n =>
      obtain ⟨out, -, rfl⟩ := Option.map_eq_some_iff.mp step
      exact ⟨rfl, rfl⟩
  | elapse ms | write bs | close => cases instant

/-! ## It always becomes quiet -/

/-- What happens in no time leaves less before the agent, unless the far
end reads nothing. -/
theorem Said.nearer_of_instant (h : Said s t asked out)
    (instant : e.isInstant = true) (reads : e ≠ .read 0)
    (step : t.step? s e = some t') :
    IsNearer t'.wired t.wired := by
  cases e with
  | move m =>
      obtain ⟨w, moved, rfl⟩ := Option.map_eq_some_iff.mp step
      exact h.books.progress (AgentEnd.step_of_step? h.books.sound moved) h.listens
  | read n =>
      have one : n ≠ 0 := fun none => reads (congrArg Event.read none)
      obtain ⟨⟨bs, p⟩, took, rfl⟩ := Option.map_eq_some_iff.mp step
      unfold Pipe.take? at took
      split_ifs at took
      cases took
      refine .inr ⟨rfl, ?_⟩
      simp only [AgentEnd.work, Endpoint.undecoded, List.length_drop]
      omega
  | elapse ms | write bs | close => cases instant

/-- As long as it is not quiet something prompt can happen. -/
theorem exists_prompt (loud : ¬ IsQuiet s t) :
    ∃ e t', e.isPrompt = true ∧ e ≠ .read 0 ∧ t.step? s e = some t' := by
  by_cases still : IsStill s t.wired
  · have unread : t.wired.outbound.bytes ≠ [] := fun heard => loud ⟨still, heard⟩
    obtain ⟨t', step⟩ : ∃ t', t.step? s (.read t.wired.outbound.bytes.length) =
      some t' :=
      Option.isSome_iff_exists.mp (by simp [step?, Pipe.take?])
    exact ⟨_, t', rfl, by simpa using unread, step⟩
  · simp only [IsStill, not_forall] at still
    obtain ⟨m, other, moves⟩ := still
    obtain ⟨w, moves⟩ := Option.ne_none_iff_exists'.mp moves
    have prompt : (Event.move m).isPrompt = true := by
      cases m <;> first | rfl | exact absurd rfl (other _)
    exact ⟨.move m, { t with wired := w }, prompt, Event.noConfusion,
      by simp [step?, moves]⟩

/-- A talk in which events that take no time can happen until a goal is reached
comes to that goal. -/
theorem Said.comes_to [s.IsDecided] {goal : Talk → Prop} {allowed : Event → Prop}
    (instant : ∀ e, allowed e → e.isInstant = true)
    (goes : ∀ t, ¬ goal t → ∃ e t', allowed e ∧ e ≠ .read 0 ∧ t.step? s e = some t')
    (h : Said s t asked out) (fits : ∀ r ∈ s.replies 0 t.requests, Fits r) :
    ∃ (more : List Event) (t' : Talk), (∀ e ∈ more, allowed e) ∧
      more.foldlM (step? s) t = some t' ∧ goal t' ∧ t'.requests = t.requests ∧
      t'.wired.side.now = t.wired.side.now := by
  -- by induction on what is before the agent
  induction t using (InvImage.wf Talk.wired AgentEnd.isNearer_wf).induction
    generalizing asked out with
  | _ t ih =>
      by_cases reached : goal t
      · exact ⟨[], t, by simp, rfl, reached, rfl, rfl⟩
      obtain ⟨e, t₁, may, reads, step⟩ := goes t reached
      have nearer := h.nearer_of_instant (instant e may) reads step
      obtain ⟨sent, now⟩ := instant_step h.books.sound (instant e may) step
      have same : t₁.requests = t.requests := by rw [requests, requests, sent]
      obtain ⟨asked₁, out₁, said⟩ := h.step fits step
      obtain ⟨more, t', all, run, reached', same', now'⟩ :=
        ih t₁ nearer said (same ▸ fits)
      refine ⟨e :: more, t', List.forall_mem_cons.mpr ⟨may, all⟩, ?_, reached',
        same'.trans same, now'.trans now⟩
      rw [List.foldlM_cons, step]
      exact run

/-- It becomes quiet without any lookup coming to its end, and in no time. -/
theorem Said.comes_to_quiet [s.IsDecided] (h : Said s t asked out)
    (fits : ∀ r ∈ s.replies 0 t.requests, Fits r) :
    ∃ (more : List Event) (t' : Talk), (∀ e ∈ more, e.isPrompt = true) ∧
      more.foldlM (step? s) t = some t' ∧ IsQuiet s t' ∧ t'.requests = t.requests ∧
      t'.wired.side.now = t.wired.side.now :=
  h.comes_to (fun _ => Event.isInstant_of_isPrompt) (fun _ => exists_prompt) fits

/-! ## Which reports wait for nothing -/

/-- In what is prompt no lookup comes to its end. -/
theorem countP_isFinish_of_prompt (prompt : ∀ e ∈ es, e.isPrompt = true) :
    es.countP Event.isFinish = 0 := by
  apply List.countP_eq_zero.mpr
  intro e listed ends
  cases e with
  | move m =>
      have other : (!m.isFinish) = true := prompt _ listed
      rw [show m.isFinish = true from ends] at other
      cases other
  | elapse | write | close | read => cases ends

/-- The reports on the health checks with no more lookups in front of them than
there are permits and lookups that came to their end in the run. -/
def reportsDue (s : Setup) (es : List Event) (t : Talk) : List Reply :=
  reportsWithin (s.limit + es.countP Event.isFinish) t.requests

/-- What is prompt happens in hindsight as it happens. -/
theorem prompt_inHindsight {late : List Nat}
    (prompt : ∀ e ∈ es, e.isPrompt = true) :
    es.foldlM (step? (s.inHindsight late)) t = es.foldlM (step? s) t := by
  induction es generalizing t with
  | nil => rfl
  | cons e es ih =>
      obtain ⟨now, later⟩ := List.forall_mem_cons.mp prompt
      have none : e.finished = [] := by
        cases e with
        | move m => cases m <;> first | rfl | cases now
        | elapse | write | close | read => rfl
      rw [List.foldlM_cons, List.foldlM_cons, step?_inHindsight (by simp [none])]
      simp only [ih later]

theorem isQuiet_inHindsight {late : List Nat} :
    IsQuiet (s.inHindsight late) t ↔ IsQuiet s t :=
  ⟨fun ⟨still, heard⟩ =>
    ⟨fun m other => AgentEnd.step?_inHindsight_eq_none.mp (still m other), heard⟩,
    fun ⟨still, heard⟩ =>
      ⟨fun m other => AgentEnd.step?_inHindsight_eq_none.mpr (still m other),
        heard⟩⟩

/-- No other reports are written than those that are due, as long as the far end
reads. All of them are, where nothing prompt is left to happen, and it comes to
that from everywhere in no time, with no lookup coming to its end and nothing more
from the far end. -/
theorem reports_prompt
    (run : es.foldlM (step? s) (fresh s inbound outbound) = some t)
    (fits : ∀ r ∈ (hindsight s inbound outbound es).replies 0 t.requests, Fits r)
    (wide : 0 < outbound) :
    t.replies.filter Reply.isReport <+: reportsDue s es t ∧
      (IsQuiet s t → t.replies.filter Reply.isReport = reportsDue s es t) ∧
      ∃ (more : List Event) (t' : Talk), (∀ e ∈ more, e.isPrompt = true) ∧
        more.foldlM (step? s) t = some t' ∧ IsQuiet s t' ∧
        t'.requests = t.requests ∧
        t'.wired.side.now = t.wired.side.now ∧
        t'.replies.filter Reply.isReport = reportsDue s es t := by
  have foreseen := run_hindsight run
  obtain ⟨asked, out, said⟩ := said_of_run foreseen fits
  have wide' := capacity_of_run foreseen fits ▸ wide
  have balance := admitted_of_run run
  refine ⟨said.reports_prefix fits balance, fun quiet => ?_, ?_⟩
  · exact said.reports_of_quiet fits wide' balance (isQuiet_inHindsight.mpr quiet)
  · obtain ⟨more, t', prompt, later, quiet, same, now⟩ := said.comes_to_quiet fits
    have run' := Run.append foreseen later
    have fits' := same.symm ▸ fits
    obtain ⟨asked', out', said'⟩ := said_of_run run' fits'
    have balance' := admitted_of_run run'
    rw [List.countP_append, countP_isFinish_of_prompt prompt,
      Nat.add_zero] at balance'
    have all := said'.reports_of_quiet fits'
      (capacity_of_run run' fits' ▸ wide) balance' quiet
    rw [same] at all
    exact ⟨more, t', prompt, (prompt_inHindsight prompt).symm.trans later,
      isQuiet_inHindsight.mp quiet, same, now, all⟩

/-- One lookup at a time, and a resolver that never answers. -/
def stalled : Setup := .of 1 5000 fun _ _ => ⟨none, .ok "app"⟩

instance : stalled.IsDecided where
  in_time _ _ _ never := by cases never

/-- Two lookups, each with a health check behind it. -/
def paired : List Request := [.lookup 1 1, .health 2, .lookup 3 2, .health 4]

theorem paired_fits : ∀ r ∈ stalled.replies 0 paired, Fits r := by
  decide +kernel

/-- When they have been sent, the first health check has its report in no time,
and the second has none. -/
theorem paired_reports :
    ∃ t, [Event.write (frames encodeRequest paired)].foldlM (step? stalled)
        (fresh stalled 200 200) = some t ∧ t.requests = paired ∧
      ∃ (more : List Event) (t' : Talk), (∀ e ∈ more, e.isPrompt = true) ∧
        more.foldlM (step? stalled) t = some t' ∧ t'.wired.side.now = 0 ∧
        t'.replies.filter Reply.isReport = [.health (.serving 2)] := by
  have sends : ([Event.write (frames encodeRequest paired)].foldlM (step? stalled)
      (fresh stalled 200 200)).any
        (fun t => t.requests = paired && t.wired.side.now = 0) = true := by
    decide +kernel
  obtain ⟨t, run, sends⟩ := (Option.any_eq_true _ _).mp sends
  obtain ⟨asked, start⟩ : t.requests = paired ∧ t.wired.side.now = 0 := by
    simpa using sends
  have fits : ∀ r ∈ stalled.replies 0 t.requests, Fits r := asked ▸ paired_fits
  obtain ⟨-, -, more, t', prompt, later, -, -, now, all⟩ :=
    reports_prompt run (by rwa [hindsight_of_decided]) (by decide)
  rw [reportsDue, asked] at all
  exact ⟨t, run, asked, more, t', prompt, later, now.trans start, all⟩

/-- All is read and written that can be, and the first lookup is about
to be given up. -/
def backlog : List Event :=
  [.write (frames encodeRequest paired), .move (.pull 84), .move .read,
    .move .grant, .move (.begin 0), .move .read, .move .report, .move .read,
    .move .take, .move (.push 41), .move .flush, .read 41, .elapse 4999]

/-- The second health check has waited for 4999 ms then, nothing can move, and
whatever else happens, it is not answered before a lookup comes to its end. -/
theorem backlog_unanswered :
    ∃ t, backlog.foldlM (step? stalled) (fresh stalled 200 200) = some t ∧
      t.requests = paired ∧
      t.wired.side.now = 4999 ∧ AgentEnd.next stalled t.wired = none ∧
      ∀ (more : List Event) (t' : Talk), more.foldlM (step? stalled) t = some t' →
        t'.requests = paired → more.countP Event.isFinish = 0 →
          Reply.health (.serving 4) ∉ t'.replies := by
  have waits :
      (backlog.foldlM (step? stalled) (fresh stalled 200 200)).any (fun t =>
      t.requests = paired && t.wired.side.now = 4999 &&
      (AgentEnd.next stalled t.wired).isNone) = true := by
    decide +kernel
  obtain ⟨t, run, waits⟩ := (Option.any_eq_true _ _).mp waits
  obtain ⟨⟨asked, now⟩, stuck⟩ : (t.requests = paired ∧ t.wired.side.now = 4999) ∧
      AgentEnd.next stalled t.wired = none := by simpa using waits
  refine ⟨t, run, asked, now, stuck, ?_⟩
  intro more t' later asked' ends answered
  have run' := Run.append run later
  have fits' : ∀ r ∈ stalled.replies 0 t'.requests, Fits r := asked' ▸ paired_fits
  obtain ⟨_, _, said⟩ := said_of_run run' fits'
  have balance := admitted_of_run run'
  rw [List.countP_append, ends] at balance
  have within := said.reports_prefix fits' balance
  rw [asked'] at within
  have due : Reply.health (.serving 4) ∈ [.health (.serving 2)] :=
    within.subset (List.mem_filter.mpr ⟨answered, rfl⟩)
  exact absurd due (by decide)

end ElementAgent.Talk

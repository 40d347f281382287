import ElementAgent.Proofs.Agent.Talk

/-!
# A reply that fits into no frame

A resolver may say more than a frame can hold. The writer that takes such a reply
ends, and with it all that the agent would still have written. Main statements: a
writer that has ended never writes again (`IsMute.step`, `IsMute.run`), every run
either keeps the books of the talk or has lost replies to a writer that ended too
early (`course_of_run`), and so all requests are answered if and only if all their
answers fit into frames (`answered_iff_fits`).
-/

namespace ElementAgent.Talk

open Agent (Setup)
open AgentEnd (Books Fits Breaks)
open Wire (frames encodeRequest encodeReply decodeRequest decodeReply)

variable {s : Setup} {t t' : Talk} {e : Event} {es : List Event}
  {asked : List Request} {out lost : List Reply} {inbound outbound : Nat}

/-! ## After the writer -/

/-- The writer has ended and has left nothing half written. -/
structure IsMute (t : Talk) : Prop where
  sound : t.wired.splitter.IsSound
  gone : t.wired.side.writing = .ended
  silent : t.wired.sending = []

namespace IsMute

/-- No move brings the writer back. -/
theorem move (h : IsMute t) {w : AgentEnd} (step : AgentEnd.Step s t.wired w) :
    IsMute { t with wired := w } ∧ w.outbound.bytes = t.wired.outbound.bytes := by
  have gone := h.gone
  cases step with
  | pull | release => exact ⟨{ h with }, rfl⟩
  | request sound _ act | undecodable sound _ act | endOfStream sound _ act =>
      cases act <;> exact ⟨⟨sound, gone, h.silent⟩, rfl⟩
  | inner inner act =>
      refine ⟨⟨h.sound, ?_, h.silent⟩, rfl⟩
      cases inner <;> cases act <;> first | exact gone | rfl
  | take free | oversize free =>
      rw [gone] at free
      cases free
  | push bytes some _ =>
      rw [h.silent] at bytes
      exact absurd (List.append_eq_nil_iff.mp bytes.symm).1 some
  | fail _ act =>
      cases act with
      | writeFailed busy =>
          rw [gone] at busy
          cases busy
  | flush _ busy =>
      rw [gone] at busy
      cases busy

theorem step (h : IsMute t) (step : t.step? s e = some t') :
    IsMute t' ∧ t'.written = t.written := by
  cases e with
  | move m =>
      obtain ⟨w, moved, rfl⟩ := Option.map_eq_some_iff.mp step
      obtain ⟨mute, same⟩ := h.move (AgentEnd.step_of_step? h.sound moved)
      exact ⟨mute, by rw [written, same]; rfl⟩
  | elapse ms | close =>
      cases step
      exact ⟨{ h with }, rfl⟩
  | write bs =>
      simp only [step?] at step
      split_ifs at step
      obtain ⟨p, -, rfl⟩ := Option.map_eq_some_iff.mp step
      exact ⟨{ h with }, rfl⟩
  | read n =>
      obtain ⟨⟨bs, p⟩, took, rfl⟩ := Option.map_eq_some_iff.mp step
      unfold Pipe.take? at took
      split_ifs at took
      cases took
      refine ⟨{ h with }, ?_⟩
      simp [written]

/-- Whatever happens then, nothing more is written. -/
theorem run (h : IsMute t) (run : es.foldlM (step? s) t = some t') :
    IsMute t' ∧ t'.written = t.written := by
  refine Run.induct (P := fun _ t' => IsMute t' ∧ t'.written = t.written)
    ⟨h, rfl⟩ ?_ run
  intro _ t₁ e t₂ _ ih step
  obtain ⟨mute, same⟩ := ih.1.step step
  exact ⟨mute, same.trans ih.2⟩

end IsMute

/-- A writer that takes a reply that fits into no frame ends. -/
theorem take_of_long {w : AgentEnd} {r : Reply} {rest : List Reply}
    (free : w.side.writing = .idle) (next : w.side.queue = r :: rest)
    (long : ¬ Fits r) :
    w.step? s .take =
      some { w with side := { w.side with writing := .ended, queue := [] } } := by
  have wide : ¬ (encodeReply r).length ≤ Wire.maxBody := long
  simp [AgentEnd.step?, AgentEnd.act?, Agent.step?, free, next,
    Wire.appendFrame, wide]

theorem isMute_of_breaks (h : Said s t asked out) {w : AgentEnd}
    (breaks : Breaks t.wired w) :
    IsMute { t with wired := w } ∧ w.outbound = t.wired.outbound := by
  cases breaks with
  | oversize free _ _ =>
      have silent : t.wired.sending = [] :=
        h.books.silent fun r busy => by simp [free] at busy
      exact ⟨⟨h.books.sound, rfl, silent⟩, rfl⟩

/-! ## The course of any talk -/

/-- Replies were lost to the writer: those that it wrote are all that will be
written, and the first of those that it did not write fits into no frame. -/
structure Broken (s : Setup) (t : Talk) (out lost : List Reply) : Prop where
  mute : IsMute t
  written : t.written = frames encodeReply out
  owed : (out ++ lost).Subperm (s.replies 0 t.requests)
  long : ∃ r ∈ lost, ¬ Fits r

/-- What was owed is owed when more has been asked. -/
theorem owed_step (step : t.step? s e = some t')
    (owed : out.Subperm (s.replies 0 t.requests)) :
    out.Subperm (s.replies 0 t'.requests) := by
  obtain ⟨more, all⟩ := requests_step step
  rw [← all, s.replies_append]
  exact owed.trans (List.sublist_append_left _ _).subperm

theorem Broken.step (h : Broken s t out lost) (step : t.step? s e = some t') :
    Broken s t' out lost := by
  obtain ⟨mute, same⟩ := h.mute.step step
  exact ⟨mute, same.trans h.written, owed_step step h.owed, h.long⟩

theorem Said.broken (h : Said s t asked out) {w : AgentEnd}
    (breaks : Breaks t.wired w) :
    ∃ lost, Broken s { t with wired := w } out lost := by
  obtain ⟨mute, same⟩ := isMute_of_breaks h breaks
  cases breaks with
  | @oversize r rest free next long =>
      have owed := h.owed
      rw [next] at owed
      have writing := h.writing
      rw [show t.wired.sending = [] from mute.silent, List.append_nil] at writing
      exact ⟨r :: rest, mute, writing, owed, r, List.mem_cons_self .., long⟩

/-- Every run of a decided setup keeps the books of the talk and writes replies
that fit, or has lost replies to the writer. -/
theorem course_of_run [s.IsDecided]
    (run : es.foldlM (step? s) (fresh s inbound outbound) = some t) :
    ∃ out, (∀ r ∈ out, Fits r) ∧
      ((∃ asked, Said s t asked out) ∨ ∃ lost, Broken s t out lost) := by
  refine Run.induct (P := fun _ t => ∃ out, (∀ r ∈ out, Fits r) ∧
    ((∃ asked, Said s t asked out) ∨ ∃ lost, Broken s t out lost)) ?_ ?_ run
  · exact ⟨[], by simp, .inl ⟨[], .start s inbound outbound⟩⟩
  intro _ t e t' _ ih step
  obtain ⟨out, fits, ⟨asked, said⟩ | ⟨lost, broken⟩⟩ := ih
  · by_cases other : ∀ m, e ≠ .move m
    · exact ⟨out, fits, .inl ⟨asked, said.outside other step⟩⟩
    · obtain ⟨m, rfl⟩ : ∃ m, e = .move m := by simpa using other
      obtain ⟨w, moved, rfl⟩ := Option.map_eq_some_iff.mp step
      by_cases breaks : Breaks t.wired w
      · obtain ⟨lost, broken⟩ := said.broken breaks
        exact ⟨out, fits, .inr ⟨lost, broken⟩⟩
      · have act := AgentEnd.step_of_step? said.books.sound moved
        obtain ⟨read, taken, turn, short⟩ := said.books.turn act said.listens breaks
        refine ⟨out ++ taken, ?_, .inl ⟨_, said.turn turn⟩⟩
        exact fun r listed => (List.mem_append.mp listed).elim (fits r) (short r)
  · exact ⟨out, fits, .inr ⟨lost, broken.step step⟩⟩

/-! ## Answers -/

/-- What an agent writes are the answers to its requests, each at most once, as
long as the far end goes on reading. When it has finished, all requests have been
answered if and only if all answers fit into frames: one that does not, once the
writer takes it, is the end of all writing. -/
theorem answered_iff_fits
    (run : es.foldlM (step? s) (fresh s inbound outbound) = some t) :
    (∃ out, t.written ++ t.wired.sending = frames encodeReply out ∧
        out.Subperm ((hindsight s inbound outbound es).replies 0 t.requests)) ∧
      (t.wired.side.isServed = true →
        (t.replies.Perm ((hindsight s inbound outbound es).replies 0 t.requests) ↔
          ∀ r ∈ (hindsight s inbound outbound es).replies 0 t.requests, Fits r)) ∧
      ∀ r rest, t.wired.side.writing = .idle →
        t.wired.side.queue = r :: rest → ¬ Fits r →
        ∀ later t', (.move .take :: later).foldlM (step? s) t = some t' →
          t'.written = t.written := by
  obtain ⟨out, fits, ⟨asked, said⟩ | ⟨lost, broken⟩⟩ :=
    course_of_run (run_hindsight run)
  · refine ⟨⟨out, said.writing,
      (List.sublist_append_left _ _).subperm.trans said.owed⟩, ?_, ?_⟩
    · intro served
      obtain ⟨bytes, owed⟩ := said.served served
      rw [replies_of_written bytes fits]
      exact ⟨fun all r listed => fits r (all.mem_iff.mpr listed),
        fun _ => owed.symm⟩
    · intro r rest free next long later t' run'
      rw [List.foldlM_cons] at run'
      rw [step?, take_of_long free next long] at run'
      obtain ⟨mute, same⟩ := isMute_of_breaks said (.oversize free next long)
      rw [(mute.run run').2, written, same]
      rfl
  · have same := replies_of_written broken.written fits
    obtain ⟨r, listed, long⟩ := broken.long
    have owed : r ∈ (hindsight s inbound outbound es).replies 0 t.requests :=
      broken.owed.subset (List.mem_append_right _ listed)
    refine ⟨⟨out, ?_, (List.sublist_append_left _ _).subperm.trans broken.owed⟩,
      fun _ => ?_, ?_⟩
    · rw [broken.mute.silent, List.append_nil, broken.written]
    · rw [same]
      exact ⟨fun all => absurd (fits r (all.mem_iff.mpr owed)) long,
        fun all => absurd (all r owed) long⟩
    · intro _ _ free
      rw [broken.mute.gone] at free
      cases free

/-! ## A run -/

/-- A bundle id of `n` bytes. -/
def giant (n : Nat) : String := String.ofList (List.replicate n 'a')

theorem length_giant (n : Nat) : (Text.Utf8.encode (giant n)).length = n := by
  have one : 'a'.utf8Size = 1 := rfl
  simp [Text.Utf8.encode, giant, List.length_flatMap, one]

theorem giant_long (id : UInt64) {n : Nat} (long : Wire.maxBody < n) :
    ¬ Fits (.lookup (.found id (giant n))) := by
  have part : (Text.Utf8.encode (giant n)).length ≤
      (encodeReply (.lookup (.found id (giant n)))).length :=
    Wire.length_replyText (by simp [Wire.replyTexts, LookupReply.found])
  rw [length_giant] at part
  exact Nat.not_le.mpr (Nat.lt_of_lt_of_le long part)

def bulky : Setup := .of 2 20 fun _ _ => ⟨some 0, .ok (giant 70000)⟩

instance : bulky.IsDecided where
  in_time _ _ _ at_once := Option.some.inj at_once ▸ Nat.zero_le _

theorem bulky_replies : bulky.replies 0 [.lookup 1 1, .health 2] =
    [.lookup (.found 1 (giant 70000)), .health (.serving 2)] := by
  have named : giant 70000 ≠ "" := by
    intro empty
    have length := length_giant 70000
    rw [empty] at length
    cases length
  have answer : bulky.answer 1 1 (bulky.plan 0 1) = .found 1 (giant 70000) := by
    simp [bulky, Setup.of, Setup.answer, Plan.answer, Agent.replyOf, named]
  simp only [Setup.replies, Setup.reply]
  rw [answer]

/-- A lookup and a health check, both read and answered before the writer takes
the first reply. -/
def hoarding : List Event :=
  [.write (frames encodeRequest [.lookup 1 1, .health 2]), .close, .move (.pull 42),
    .move .read, .move .grant, .move (.begin 0), .move (.finish 0), .move (.hand 0),
    .move .read, .move .report, .move .read]

/-- In that run the writer is about to take the giant, and has
written nothing yet. -/
theorem hoarding_full :
    ∃ t rest, hoarding.foldlM (step? bulky) (fresh bulky 200 200) = some t ∧
      t.wired.side.reading = .ended ∧ t.wired.side.writing = .idle ∧
      t.requests = [.lookup 1 1, .health 2] ∧ t.written = [] ∧
      t.wired.side.queue = .lookup (.found 1 (giant 70000)) :: rest := by
  have ends : (hoarding.foldlM (step? bulky) (fresh bulky 200 200)).any (fun t =>
      t.wired.side.reading = .ended && t.wired.side.writing = .idle &&
        t.requests = [.lookup 1 1, .health 2] && t.written = [] &&
        t.wired.side.queue.head?.any (·.exchange = .lookup)) = true := by
    decide +kernel
  obtain ⟨t, run, ends⟩ := (Option.any_eq_true _ _).mp ends
  simp only [Bool.and_eq_true, decide_eq_true_eq, Option.any_eq_true] at ends
  obtain ⟨⟨⟨⟨read, free⟩, asked⟩, silent⟩, r, first, kind⟩ := ends
  obtain ⟨rest, queue⟩ := List.head?_eq_some_iff.mp first
  have owed : r ∈ bulky.replies 0 t.requests := by
    obtain ⟨out, -, ⟨asked, said⟩ | ⟨lost, broken⟩⟩ := course_of_run run
    · exact said.owed.subset (by simp [queue])
    · rw [broken.mute.gone] at free
      cases free
  -- of the two replies that are owed only one answers a lookup
  rw [asked, bulky_replies] at owed
  rcases List.mem_pair.mp owed with rfl | rfl
  · exact ⟨t, rest, run, read, free, asked, silent, queue⟩
  · cases kind

/-- From there nothing is ever written. -/
theorem hoarding_silent :
    ∃ t, hoarding.foldlM (step? bulky) (fresh bulky 200 200) = some t ∧
      t.requests = [.lookup 1 1, .health 2] ∧
      ∀ later t', (.move .take :: later).foldlM (step? bulky) t = some t' →
        t'.written = [] := by
  obtain ⟨t, rest, run, -, free, asked, silent, queue⟩ := hoarding_full
  refine ⟨t, run, asked, ?_⟩
  intro later t' run'
  rw [← silent]
  exact (answered_iff_fits run).2.2 _ rest free queue
    (giant_long 1 (by decide)) later t' run'

/-- So the agent finishes, with two requests read and no reply written. -/
theorem hoarding_unanswered :
    ∃ t, (hoarding ++ [Event.move .take]).foldlM (step? bulky)
      (fresh bulky 200 200) = some t ∧
      t.wired.side.isServed = true ∧ t.requests = [.lookup 1 1, .health 2] ∧
      t.replies = [] := by
  obtain ⟨t, rest, run, read, free, asked, silent, queue⟩ := hoarding_full
  have taken : t.step? bulky (.move .take) = some { t with
      wired :=
        { t.wired with
          side := { t.wired.side with writing := .ended, queue := [] } } } := by
    rw [step?, take_of_long free queue (giant_long 1 (by decide))]
    rfl
  refine ⟨_, Run.concat run taken, ?_, asked, ?_⟩
  · simp [Agent.isServed, read]
  · show Wire.messages decodeReply t.written = []
    rw [silent, Wire.messages_nil]

end ElementAgent.Talk

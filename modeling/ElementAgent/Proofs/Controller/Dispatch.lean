import ElementAgent.Proofs.Agent.Still
import ElementAgent.Proofs.Call.Conservation
import ElementAgent.Proofs.Controller.Outbox

/-!
# Requests on their way out

A controller that is called, moved and dropped in any order, and a far end that
reads its stream when it likes. Main statement (`nothing_lost_on_the_way_out`):
as long as no write fails and the reader stays until the controller is dropped,
the far end decodes the requests of all calls in the order of the calls, also of
those that were still queued when the controller was dropped, and sees the end
of the stream behind the last of them; and a call that is unanswered when the
reader stops fails.
-/

namespace ElementAgent

open Wire (Reception encodeRequest decodeRequest maxBody)

/-- A controller on its pipes, and what the far end has made of its stream. -/
structure Dispatch where
  wired : ControllerEnd
  far : Reception
  /-- The requests that the far end has decoded, oldest first. -/
  requests : List Request

namespace Dispatch

inductive Event where
  | lookup (pid : Pid)
  | health
  | drop
  /-- One of the controller's tasks moves. -/
  | move (m : ControllerEnd.Move)
  /-- The far end writes. -/
  | write (bs : List UInt8)
  /-- The far end will write no more. -/
  | close
  /-- The far end will read no more. -/
  | leave
  /-- The far end reads `n` bytes. -/
  | read (n : Nat)
  /-- The far end sees that the stream has ended. -/
  | finish

def fresh (inbound outbound : Nat) : Dispatch :=
  ⟨{ Endpoint.fresh Controller.fresh with
      inbound := .fresh inbound, outbound := .fresh outbound }, .fresh, []⟩

/-- The far end reads on. -/
def listens (d : Dispatch) : Bool :=
  d.wired.outbound.readerHeld && d.far.ending.isNone

def act? (d : Dispatch) (e : Controller.Event) : Option Dispatch :=
  (ControllerEnd.act? d.wired e).map fun wired => { d with wired }

/-- One event; none if it is not open. -/
def step? (d : Dispatch) : Event → Option Dispatch
  | .lookup pid => d.act? (.lookup pid)
  | .health => d.act? .health
  | .drop => d.act? .drop
  | .move m => (d.wired.step? m).map fun wired => { d with wired }
  | .write bs =>
    if d.wired.inbound.writerHeld then
      (d.wired.inbound.put? bs).map fun inbound =>
        { d with wired := { d.wired with inbound } }
    else none
  | .close =>
    some { d with wired :=
      { d.wired with inbound := { d.wired.inbound with writerHeld := false } } }
  | .leave =>
    some { d with wired :=
      { d.wired with outbound := { d.wired.outbound with readerHeld := false } } }
  | .read n =>
    if d.listens ∧ 0 < n then
      (d.wired.outbound.take? n).map fun (bs, outbound) =>
        let (now, far) := d.far.feed decodeRequest bs
        ⟨{ d.wired with outbound }, far, d.requests ++ now⟩
    else none
  | .finish =>
    if d.listens ∧ d.wired.outbound.isEnded then
      some { d with far := d.far.finish decodeRequest }
    else none

/-! ## The calls of a run -/

/-- The request that an event makes under an id. -/
def Event.request? : Event → Option (UInt64 → Request)
  | .lookup pid => some (.lookup · pid)
  | .health => some .health
  | _ => none

/-- The requests of the calls in the order of the calls, with their ids. -/
def calls (es : List Event) : List Request :=
  (es.filterMap Event.request?).mapIdx fun n request => request (UInt64.ofNat n)

variable {es : List Event} {e : Event}

theorem calls_concat_of_request {request : UInt64 → Request}
    (h : e.request? = some request) :
    calls (es ++ [e]) = calls es ++ [request (UInt64.ofNat (calls es).length)] := by
  simp [calls, List.filterMap_append, h, List.mapIdx_append]

theorem calls_concat_of_none (h : e.request? = none) :
    calls (es ++ [e]) = calls es := by
  simp [calls, List.filterMap_append, h]

/-- What an event does. -/
inductive Step (d : Dispatch) : Event → Dispatch → Prop
  | call {e x request} (kept : d.wired.side.dropped = false)
      (made : e.request? = some request)
      (kind : ∀ id, (request id).exchange = x) :
      Step d e { d with
        wired := { d.wired with side := d.wired.side.call x request } }
  | drop : Step d .drop { d with
      wired := { d.wired with side := { d.wired.side with dropped := true } } }
  | move {m w} (moved : d.wired.step? m = some w) :
      Step d (.move m) { d with wired := w }
  | write {bs} (inbound : Pipe) :
      Step d (.write bs) { d with wired := { d.wired with inbound } }
  | close (inbound : Pipe) :
      Step d .close { d with wired := { d.wired with inbound } }
  | leave :
      Step d .leave { d with
        wired :=
          { d.wired with
            outbound := { d.wired.outbound with readerHeld := false } } }
  | read {n bs rest} (listens : d.listens = true)
      (bytes : d.wired.outbound.bytes = bs ++ rest)
      (some : bs ≠ []) :
      Step d (.read n)
        ⟨{ d.wired with outbound := { d.wired.outbound with bytes := rest } },
          (d.far.feed decodeRequest bs).2,
          d.requests ++ (d.far.feed decodeRequest bs).1⟩
  | finish (listens : d.listens = true) (ended : d.wired.outbound.isEnded = true) :
      Step d .finish { d with far := d.far.finish decodeRequest }

variable {inbound outbound : Nat} {d d' : Dispatch}

theorem step_of_step? (h : d.step? e = some d') : Step d e d' := by
  cases e with
  | lookup pid =>
      obtain ⟨w, acted, rfl⟩ := Option.map_eq_some_iff.mp h
      obtain ⟨c, act, rfl⟩ := ControllerEnd.act?_eq_some acted
      cases Controller.step_of_step? act with
      | lookup kept => exact .call kept rfl fun _ => rfl
  | health =>
      obtain ⟨w, acted, rfl⟩ := Option.map_eq_some_iff.mp h
      obtain ⟨c, act, rfl⟩ := ControllerEnd.act?_eq_some acted
      cases Controller.step_of_step? act with
      | health kept => exact .call kept rfl fun _ => rfl
  | drop =>
      obtain ⟨w, acted, rfl⟩ := Option.map_eq_some_iff.mp h
      obtain ⟨c, act, rfl⟩ := ControllerEnd.act?_eq_some acted
      cases Controller.step_of_step? act
      exact .drop
  | move m =>
      obtain ⟨w, moved, rfl⟩ := Option.map_eq_some_iff.mp h
      exact .move moved
  | write bs =>
      simp only [step?] at h
      split_ifs at h
      obtain ⟨inbound, -, rfl⟩ := Option.map_eq_some_iff.mp h
      exact .write inbound
  | close =>
      cases h
      exact .close _
  | leave =>
      cases h
      exact .leave
  | read n =>
      simp only [step?] at h
      split_ifs at h with asks
      obtain ⟨⟨bs, pipe⟩, taken, rfl⟩ := Option.map_eq_some_iff.mp h
      unfold Pipe.take? at taken
      split_ifs at taken with enough
      cases taken
      refine .read asks.1 (List.take_append_drop n _).symm fun nothing => ?_
      have count := congrArg List.length nothing
      rw [List.length_take, Nat.min_eq_left enough, List.length_nil] at count
      exact absurd count (Nat.pos_iff_ne_zero.mp asks.2)
  | finish =>
      simp only [step?] at h
      split_ifs at h with asks
      cases h
      exact .finish asks.1 asks.2

/-- No write fails, and the reader stays until the controller is dropped. -/
structure IsUndisturbed (inbound outbound : Nat) (es : List Event) : Prop where
  written : .move .fail ∉ es
  attended : ∀ before ∈ es.inits,
    ∀ d ∈ before.foldlM step? (fresh inbound outbound),
    d.wired.side.readerGone = true → d.wired.side.dropped = true

theorem IsUndisturbed.of_concat (h : IsUndisturbed inbound outbound (es ++ [e])) :
    IsUndisturbed inbound outbound es where
  written := fun listed => h.written (List.mem_append_left _ listed)
  attended := fun before first => h.attended before
    ((List.mem_inits before _).mpr
      (((List.mem_inits before es).mp first).trans (List.prefix_append _ _)))

/-! ## What holds in every run -/

variable {made : List Request}

theorem readable (rs : List Request) :
    ∀ r ∈ rs, (encodeRequest r).length ≤ maxBody ∧
      decodeRequest (encodeRequest r) = .ok r :=
  fun r _ => ⟨Wire.length_encodeRequest r, Wire.decodeRequest_encodeRequest r⟩

/-- Where the requests that were made are. -/
def IsDelivering (made : List Request) (d : Dispatch) : Prop :=
  (∃ unread, made = d.requests ++ unread ++ d.wired.side.queue ∧
    d.wired.outbox.IsOnTheWay d.far unread) ∨
  (d.far.ending = some .endOfStream ∧ d.wired.side.dropped = true ∧
    d.requests = made)

/-- The table knows the calls that were made, and is open as long as
calls can be made. -/
structure KnowsCalls (made : List Request) (c : Controller) : Prop where
  tidy : c.calls.Tidy
  issued : c.calls.issued = made.length
  kinds : ∀ entry ∈ c.calls.pending,
    made[entry.2.number]?.map Request.exchange = some entry.2.exchange
  attended : c.dropped = false → c.calls.closed = false ∧ c.readerGone = false

structure IsSound (made : List Request) (d : Dispatch) : Prop where
  known : KnowsCalls made d.wired.side
  orderly : d.wired.outbox.IsOrderly d.wired.side.dropped
  delivering : IsDelivering made d

theorem isSound_fresh : IsSound [] (fresh inbound outbound) where
  known :=
    ⟨.start, rfl,
      by simp [fresh, Endpoint.fresh, Controller.fresh, CallTable.empty],
      fun _ => ⟨rfl, rfl⟩⟩
  orderly :=
    ⟨fun _ => rfl, nofun,
      by simp [ControllerEnd.outbox, fresh, Endpoint.fresh, Pipe.fresh,
        Controller.fresh]⟩
  delivering := .inl ⟨[], rfl, Reception.receives_fresh []⟩

/-- A call is entered under the next number. -/
theorem KnowsCalls.issue {c : Controller} (h : KnowsCalls made c)
    (kept : c.dropped = false) (r : Request) (queue : List Request) :
    KnowsCalls (made ++ [r])
      { c with calls := c.calls.issue r.exchange, queue } := by
  refine ⟨h.tidy.issue r.exchange, ?_, ?_, ?_⟩
  · rw [CallTable.issue_issued, h.issued, List.length_append]
    rfl
  · intro entry listed
    rcases CallTable.mem_pending_issue listed with old | rfl
    · have older := h.tidy.accounted.pending_lt old
      rw [h.issued] at older
      rw [List.getElem?_append_left older]
      exact h.kinds entry old
    · rw [h.issued, List.getElem?_concat_length, Option.map_some]
  · intro _
    rw [CallTable.issue_closed]
    exact h.attended kept

/-- Reading leaves the table in order. -/
theorem KnowsCalls.hears {c c' : Controller} (h : KnowsCalls made c)
    (hears : c.Hears c')
    (attended : c'.readerGone = true → c'.dropped = true) : KnowsCalls made c' := by
  cases hears with
  | aside calls reader owner =>
      refine ⟨calls ▸ h.tidy, calls ▸ h.issued, calls ▸ h.kinds, ?_⟩
      rw [calls, reader, owner]
      exact h.attended
  | reply r calls reader owner =>
      refine ⟨calls ▸ h.tidy.receive r, ?_, ?_, ?_⟩
      · rw [calls, CallTable.receive_issued]
        exact h.issued
      · intro entry listed
        rw [calls] at listed
        exact h.kinds entry (CallTable.mem_pending_receive listed).1
      · rw [calls, CallTable.receive_closed, reader, owner]
        exact h.attended
  | ended why calls reads gone owner =>
      refine ⟨calls ▸ h.tidy.close, ?_, ?_, ?_⟩
      · rw [calls, CallTable.close_issued]
        exact h.issued
      · intro entry listed
        rw [calls, CallTable.close, CallTable.failAll_pending] at listed
        cases listed
      · intro kept
        rw [attended gone] at kept
        cases kept

/-- A call on a controller that was not dropped is entered and queued. -/
theorem IsSound.call (h : IsSound made d) {request : UInt64 → Request}
    (kept : d.wired.side.dropped = false) {x : Exchange}
    (kind : ∀ id, (request id).exchange = x) :
    IsSound (made ++ [request (UInt64.ofNat made.length)])
      { d with wired := { d.wired with side := d.wired.side.call x request } } := by
  -- before the drop neither task has ended, so the table takes the call and the
  -- queue its request
  have open_ := (h.known.attended kept).1
  have alive : d.wired.side.writerGone = false := by
    rw [← Bool.not_eq_true]
    intro gone
    have dropped := (h.orderly.ended gone).1
    rw [kept] at dropped
    cases dropped
  have queued : d.wired.side.call x request = { d.wired.side with
      calls := d.wired.side.calls.issue x,
      queue := d.wired.side.queue ++ [request d.wired.side.calls.nextId] } := by
    simp [Controller.call, open_, alive]
  have id : d.wired.side.calls.nextId = UInt64.ofNat made.length := by
    rw [CallTable.nextId, h.known.issued]
  have known := h.known.issue kept (request (UInt64.ofNat made.length))
  rw [kind] at known
  rw [queued, id]
  refine ⟨known _, ?_, ?_⟩
  · exact ⟨h.orderly.idle, fun gone =>
      absurd (alive.symm.trans gone) Bool.noConfusion, h.orderly.shut⟩
  · rcases h.delivering with ⟨unread, split, way⟩ | ⟨-, dropped, -⟩
    · exact .inl
        ⟨unread, by rw [split, List.append_assoc _ d.wired.side.queue], way⟩
    · rw [kept] at dropped
      cases dropped

/-- The moves of a controller whose writes do not fail. -/
theorem IsSound.move (h : IsSound made d) {m : ControllerEnd.Move}
    {w : ControllerEnd} (moved : d.wired.step? m = some w) (written : m ≠ .fail)
    (attended : w.side.readerGone = true → w.side.dropped = true) :
    IsSound made { d with wired := w } := by
  have step := ControllerEnd.outbox_of_step? moved written
  have hears := ControllerEnd.hears_of_step? moved written
  have owner : w.side.dropped = d.wired.side.dropped := by
    cases hears <;> assumption
  have orderly := h.orderly.step step
  rw [← owner] at orderly
  refine ⟨h.known.hears hears attended, orderly, ?_⟩
  rcases h.delivering with ⟨unread, split, way⟩ | ⟨ended, dropped, all⟩
  · obtain ⟨unread', queue, way'⟩ := way.step h.orderly step
    refine .inl ⟨unread', ?_, way'⟩
    rw [split, List.append_assoc, List.append_assoc]
    exact congrArg _ queue.symm
  · exact .inr ⟨ended, owner.trans dropped, all⟩

theorem ending_of_listens (listens : d.listens = true) : d.far.ending = none := by
  simp only [Dispatch.listens, Bool.and_eq_true,
    Option.isNone_iff_eq_none] at listens
  exact listens.2

/-- What the far end decodes are the next of the requests on the way. -/
theorem IsDelivering.read (h : IsDelivering made d) {bs rest : List UInt8}
    (listens : d.listens = true) (bytes : d.wired.outbound.bytes = bs ++ rest) :
    IsDelivering made
      ⟨{ d.wired with outbound := { d.wired.outbound with bytes := rest } },
      (d.far.feed decodeRequest bs).2,
      d.requests ++ (d.far.feed decodeRequest bs).1⟩ := by
  rcases h with ⟨unread, split, way⟩ | ⟨ended, -⟩
  · have chunk : d.far.Receives encodeRequest unread
        (bs ++ (rest ++ d.wired.sending)) := by
      rw [← List.append_assoc, ← bytes]
      exact way
    obtain ⟨later, same, way'⟩ := chunk.feed (readable unread)
    refine .inl ⟨later, ?_, way'⟩
    rw [split, List.append_assoc d.requests _ later, ← same]
  · rw [ending_of_listens listens] at ended
    cases ended

/-- The far end sees the end of the stream behind the last request. -/
theorem IsDelivering.finish (h : IsDelivering made d)
    (orderly : d.wired.outbox.IsOrderly d.wired.side.dropped)
    (listens : d.listens = true) (ended : d.wired.outbound.isEnded = true) :
    IsDelivering made { d with far := d.far.finish decodeRequest } := by
  simp only [Pipe.isEnded, Bool.and_eq_true, List.isEmpty_iff,
    Bool.not_eq_true'] at ended
  -- only a writer that has written everything closes the pipe
  obtain ⟨dropped, queue, free⟩ := orderly.ended (orderly.shut.mp ended.2)
  rcases h with ⟨unread, split, way⟩ | ⟨seen, -⟩
  · have nothing : d.wired.outbox.pipe.bytes ++ d.wired.outbox.sending = [] := by
      rw [orderly.idle free, List.append_nil]
      exact ended.1
    unfold Outbox.IsOnTheWay at way
    rw [nothing] at way
    obtain ⟨all, finished⟩ := way.finish (readable unread)
    refine .inr ⟨finished, dropped, ?_⟩
    have queue : d.wired.side.queue = [] := queue
    rw [split, all, queue, List.append_nil, List.append_nil]
  · rw [ending_of_listens listens] at seen
    cases seen

/-- What is no call leaves it at the requests that were made. -/
theorem IsSound.other (h : IsSound made d) (step : d.step? e = some d')
    (quiet : e.request? = none) (written : e ≠ .move .fail)
    (attended : d'.wired.side.readerGone = true → d'.wired.side.dropped = true) :
    IsSound made d' := by
  cases step_of_step? step with
  | call _ called =>
      rw [quiet] at called
      cases called
  | drop =>
      refine ⟨⟨h.known.tidy, h.known.issued, h.known.kinds, nofun⟩, ?_, ?_⟩
      · exact ⟨h.orderly.idle, fun gone =>
          ⟨rfl, (h.orderly.ended gone).2⟩, h.orderly.shut⟩
      · exact h.delivering.imp_right fun ⟨ended, _, all⟩ => ⟨ended, rfl, all⟩
  | move moved =>
      exact h.move moved (fun fails => written (congrArg Event.move fails)) attended
  | write | close => exact ⟨h.known, h.orderly, h.delivering⟩
  | leave =>
      exact ⟨h.known, ⟨h.orderly.idle, h.orderly.ended, h.orderly.shut⟩,
        h.delivering⟩
  | read listens bytes =>
      exact ⟨h.known, ⟨h.orderly.idle, h.orderly.ended, h.orderly.shut⟩,
        h.delivering.read listens bytes⟩
  | finish listens ended =>
      exact ⟨h.known, h.orderly, h.delivering.finish h.orderly listens ended⟩

theorem IsSound.step (h : IsSound (calls es) d) (step : d.step? e = some d')
    (written : e ≠ .move .fail)
    (attended : d'.wired.side.readerGone = true → d'.wired.side.dropped = true) :
    IsSound (calls (es ++ [e])) d' := by
  cases called : e.request? with
  | none =>
      rw [calls_concat_of_none called]
      exact h.other step called written attended
  | some request =>
      rw [calls_concat_of_request called]
      cases step_of_step? step with
      | call kept made kind =>
          rw [called] at made
          cases made
          exact h.call kept kind
      | drop | move | write | close | leave | read | finish => cases called

theorem isSound_of_run (run : es.foldlM step? (fresh inbound outbound) = some d)
    (undisturbed : IsUndisturbed inbound outbound es) : IsSound (calls es) d := by
  revert undisturbed
  refine Run.induct
    (P := fun es d => IsUndisturbed inbound outbound es → IsSound (calls es) d)
    (fun _ => isSound_fresh) ?_ run
  intro es d e d' first ih step undisturbed
  refine (ih undisturbed.of_concat).step step ?_ ?_
  · rintro rfl
    exact undisturbed.written (by simp)
  · exact undisturbed.attended _ ((List.mem_inits _ _).mpr (List.prefix_refl _)) d'
      (Run.concat first step)

/-! ## The end of the reader -/

/-- When the reader ends, every call that has no outcome yet fails. -/
theorem KnowsCalls.fails_of_close {c c' : Controller} {why : Disconnect}
    (h : KnowsCalls made c) (closes : c'.calls = c.calls.close why)
    {n : Nat} {r : Request}
    (called : made[n]? = some r)
    (unanswered : ∀ o, (n, o) ∉ c.calls.completed) :
    (n, Completion.failed r.exchange (.transport why.text)) ∈
      c'.calls.completed := by
  have listed : n ∈ List.range c.calls.issued := by
    rw [h.issued, List.mem_range]
    exact (List.getElem?_eq_some_iff.mp called).1
  -- a call that was made is outstanding or complete
  rcases List.mem_append.mp (h.tidy.accounted.numbers.mem_iff.mpr listed)
    with pending | completed
  · obtain ⟨entry, there, rfl⟩ := List.mem_map.mp pending
    have kind := h.kinds entry there
    rw [called] at kind
    have kind : r.exchange = entry.2.exchange := Option.some.inj kind
    rw [closes, CallTable.close, CallTable.failAll_completed, kind]
    refine List.mem_append_left _
      (List.mem_reverse.mpr (List.mem_map.mpr ⟨entry.2, ?_, rfl⟩))
    exact List.mem_map_of_mem there
  · obtain ⟨⟨m, o⟩, there, rfl⟩ := List.mem_map.mp completed
    exact absurd there (unanswered o)

/-- The reader ends by closing the table. -/
theorem closes_of_step (step : d.step? e = some d')
    (reads : d.wired.side.readerGone = false)
    (gone : d'.wired.side.readerGone = true) :
    ∃ why, d'.wired.side.calls = d.wired.side.calls.close why := by
  have changes : d'.wired.side.readerGone ≠ d.wired.side.readerGone := by
    rw [reads, gone]
    exact Bool.noConfusion
  cases step_of_step? step with
  | @move m w moved =>
      by_cases fails : m = .fail
      · rw [fails] at moved
        exact absurd (ControllerEnd.readerGone_of_fail moved) changes
      · cases ControllerEnd.hears_of_step? moved fails with
        | aside _ reader | reply _ _ reader => exact absurd reader changes
        | ended why calls => exact ⟨why, calls⟩
  | call => exact absurd (Controller.call_readerGone _ _ _) changes
  | drop | write | close | leave | read | finish => exact absurd rfl changes

/-! ## The last requests -/

/-- The event brings requests to the far end. -/
def Event.delivers : Event → Bool
  | .move m => m.brings
  | .read _ | .finish => true
  | .lookup _ | .health | .drop | .write _ | .close | .leave => false

/-- The most deliveries until the far end has seen the end of the stream. -/
def work (d : Dispatch) : Nat :=
  d.wired.outbox.work + if d.far.ending.isNone then 1 else 0

theorem written_of_delivers (delivers : e.delivers = true) : e ≠ .move .fail := by
  rintro rfl
  cases delivers

theorem request?_of_delivers (delivers : e.delivers = true) :
    e.request? = none := by
  cases e with
  | move m | read n | finish => rfl
  | lookup pid | health | drop | write bs | close | leave => cases delivers

theorem work_lt (step : d.step? e = some d') (delivers : e.delivers = true) :
    d'.work < d.work := by
  cases step_of_step? step with
  | call _ made =>
      rw [request?_of_delivers delivers] at made
      cases made
  | drop | write | close | leave => cases delivers
  | move moved =>
      have nearer := ControllerEnd.outbox_of_step? moved fun fails =>
        written_of_delivers delivers (congrArg Event.move fails)
      rw [show ControllerEnd.Move.brings _ = true from delivers] at nearer
      exact Nat.add_lt_add_right (Outbox.work_lt_of_step nearer) _
  | read listens bytes some =>
      have fewer : Outbox.work _ < d.wired.outbox.work :=
        Outbox.work_lt_of_read bytes some
      simp only [work, ending_of_listens listens, Option.isNone_none, if_true]
      refine Nat.add_lt_add_of_lt_of_le fewer ?_
      split_ifs
      · exact le_rfl
      · exact Nat.zero_le 1
  | finish listens =>
      simp only [work, ending_of_listens listens, Reception.isNone_ending_finish,
        Option.isNone_none, Bool.false_eq_true, if_true, if_false]
      omega

/-- The pipe stays as wide as it was. -/
theorem capacity_step (step : d.step? e = some d') (written : e ≠ .move .fail) :
    d'.wired.outbound.capacity = d.wired.outbound.capacity := by
  cases step_of_step? step with
  | move moved =>
      have step := ControllerEnd.outbox_of_step? moved fun fails =>
        written (congrArg Event.move fails)
      exact step.pipe.1
  | call | drop | write | close | leave | read | finish => rfl

theorem capacity_of_run (run : es.foldlM step? (fresh inbound outbound) = some d)
    (written : .move .fail ∉ es) : d.wired.outbound.capacity = outbound := by
  revert written
  refine Run.induct
    (P := fun es d => .move .fail ∉ es → d.wired.outbound.capacity = outbound)
    (fun _ => rfl) ?_ run
  intro es d e d' _ ih step written
  rw [List.mem_append, not_or, List.mem_singleton] at written
  exact (capacity_step step (Ne.symm written.2)).trans (ih written.1)

/-- The controller has been dropped, and its stream can still
reach the far end. -/
structure IsParting (d : Dispatch) : Prop where
  dropped : d.wired.side.dropped = true
  held : d.wired.outbound.readerHeld = true
  wide : 0 < d.wired.outbound.capacity

/-- It stays so while requests are delivered. -/
theorem IsParting.step (h : d.IsParting) (step : d.step? e = some d')
    (delivers : e.delivers = true) :
    d'.IsParting := by
  have written := written_of_delivers delivers
  have wide : 0 < d'.wired.outbound.capacity := by
    rw [capacity_step step written]
    exact h.wide
  cases step_of_step? step with
  | call kept => exact absurd h.dropped (by rw [kept]; exact Bool.noConfusion)
  | drop | write | close | leave => cases delivers
  | move moved =>
      have written := fun fails => written (congrArg Event.move fails)
      refine ⟨?_,
        (ControllerEnd.outbox_of_step? moved written).pipe.2.trans h.held, wide⟩
      cases ControllerEnd.hears_of_step? moved written with
      | aside _ _ owner | reply _ _ _ owner | ended _ _ _ _ owner =>
          exact owner.trans h.dropped
  | read | finish => exact ⟨h.dropped, h.held, wide⟩

/-- Deliveries after the drop: each takes some of the work off. -/
theorem IsSound.deliver (h : IsSound made d) (parting : d.IsParting)
    {more : List Event} (deliveries : ∀ e ∈ more, e.delivers = true)
    {t : Dispatch}
    (run : more.foldlM step? d = some t) :
    IsSound made t ∧ t.IsParting ∧ more.length + t.work ≤ d.work := by
  revert deliveries
  refine Run.induct (P := fun more t => (∀ e ∈ more, e.delivers = true) →
    IsSound made t ∧ t.IsParting ∧ more.length + t.work ≤ d.work) ?_ ?_ run
  · intro _
    rw [List.length_nil, Nat.zero_add]
    exact ⟨h, parting, le_rfl⟩
  · intro more t e t' _ ih step deliveries
    have delivers := deliveries e (by simp)
    obtain ⟨sound, parting, least⟩ :=
      ih fun e listed => deliveries e (List.mem_append_left _ listed)
    have parting' := parting.step step delivers
    refine ⟨?_, parting', ?_⟩
    · exact sound.other step (request?_of_delivers delivers)
        (written_of_delivers delivers)
        fun _ => parting'.dropped
    · have less := work_lt step delivers
      rw [List.length_append, List.length_singleton]
      omega

/-- Where no delivery is open after the drop the far end has seen everything, and
the end behind it. -/
theorem IsSound.all_delivered (h : IsSound made d) (parting : d.IsParting)
    (still : ∀ e, e.delivers = true → d.step? e = none) :
    d.far.ending = some .endOfStream ∧ d.requests = made := by
  rcases h.delivering with ⟨unread, -, way⟩ | ⟨ended, -, all⟩
  case inr => exact ⟨ended, all⟩
  exfalso
  -- the pipe is empty, so nothing is being written, so the writer has ended; then
  -- the far end can see it
  have stuck : ∀ m : ControllerEnd.Move, m.brings = true →
      d.wired.step? m = none := fun m brings =>
    Option.map_eq_none_iff.mp (still (.move m) brings)
  have listens : d.listens = true := by
    simp [Dispatch.listens, parting.held, way.listens]
  have empty : d.wired.outbound.bytes = [] := by
    by_contra some
    have one : 1 ≤ d.wired.outbound.bytes.length := List.length_pos_iff.mpr some
    have stuck := still (.read 1) rfl
    simp [step?, listens, Pipe.take?, one] at stuck
  have sent : d.wired.sending = [] :=
    Wired.sending_eq_nil (stuck (.push 1) rfl) parting.held parting.wide empty
  have free := ControllerEnd.writing_eq_none (stuck .flush rfl) sent
  have gone : d.wired.side.writerGone = true := by
    by_contra alive
    have alive : d.wired.side.writerGone = false := by simpa using alive
    have written := ControllerEnd.queue_eq_nil (stuck .take rfl) alive free
    have open_ := stuck .finish rfl
    simp [ControllerEnd.step?, ControllerEnd.act?, Controller.step?, alive,
      free, written, parting.dropped] at open_
  have shut : d.wired.outbound.writerHeld = false := h.orderly.shut.mpr gone
  have open_ := still .finish rfl
  simp [step?, listens, Pipe.isEnded, empty, shut] at open_

/-! ## Delivery -/

/-- As long as no write fails, and the reader stays until the controller is
dropped, the far end decodes the requests of the calls in the order of the calls,
and sees the end of the stream only after the drop, behind the last of them.
After the drop that is where a bounded number of deliveries leads, whatever their
order, if the far end reads. When the reader stops, every call that has no
outcome yet fails. -/
theorem nothing_lost_on_the_way_out
    (run : es.foldlM step? (fresh inbound outbound) = some d)
    (undisturbed : IsUndisturbed inbound outbound es) :
    d.requests <+: calls es ∧
      (∀ ending, d.far.ending = some ending →
        ending = .endOfStream ∧ d.wired.side.dropped = true ∧
        d.requests = calls es) ∧
      (0 < outbound → d.wired.side.dropped = true →
        d.wired.outbound.readerHeld = true →
        ∀ (more : List Event) (t : Dispatch), (∀ e ∈ more, e.delivers = true) →
          more.foldlM step? d = some t →
            more.length ≤ d.work ∧
              ((∀ e : Event, e.delivers = true → t.step? e = none) →
                t.far.ending = some .endOfStream ∧ t.requests = calls es)) ∧
      ∀ e t, d.step? e = some t → d.wired.side.readerGone = false →
        t.wired.side.readerGone = true →
        ∀ n r, (calls es)[n]? = some r →
          (∀ o, (n, o) ∉ d.wired.side.calls.completed) →
          ∃ text, (n, .failed r.exchange (.transport text)) ∈
            t.wired.side.calls.completed := by
  have sound := isSound_of_run run undisturbed
  refine ⟨?_, ?_, ?_, ?_⟩
  · rcases sound.delivering with ⟨unread, split, -⟩ | ⟨-, -, all⟩
    · rw [split, List.append_assoc]
      exact List.prefix_append _ _
    · rw [all]
  · intro ending seen
    rcases sound.delivering with ⟨unread, -, way⟩ | ⟨ended, dropped, all⟩
    · rw [way.listens] at seen
      cases seen
    · rw [ended] at seen
      cases seen
      exact ⟨rfl, dropped, all⟩
  · intro wide dropped held more t deliveries last
    have parting : d.IsParting :=
      ⟨dropped, held, capacity_of_run run undisturbed.written ▸ wide⟩
    obtain ⟨sound', parting', least⟩ := sound.deliver parting deliveries last
    exact ⟨by omega, sound'.all_delivered parting'⟩
  · intro e t step reads gone n r made unanswered
    obtain ⟨why, closes⟩ := closes_of_step step reads gone
    exact ⟨why.text, sound.known.fails_of_close closes made unanswered⟩

/-- A controller that is dropped with two requests in the queue and one on the
way, in bytes that are cut everywhere. -/
def leavingEarly : List Event :=
  [.lookup 7, .health, .move .take, .move (.push 3), .read 2, .lookup (-2147483648),
    .drop, .move .stop, .move (.push 22), .move .flush, .move .take,
    .move (.push 7), .read 30, .move (.push 10), .move .flush, .move .take,
    .move (.push 20), .read 5, .move (.push 5), .read 30, .move (.push 4),
    .move .flush, .move .finish, .read 4, .finish]

/-- In that run all three requests come before the end of the stream. -/
theorem leavingEarly_delivered :
    ∃ d, leavingEarly.foldlM step? (fresh 10 30) = some d ∧
      d.requests = [.lookup 0 7, .health 1, .lookup 2 (-2147483648)] := by
  have ends : (leavingEarly.foldlM step? (fresh 10 30)).any
      (fun d => d.far.ending.isSome) = true := by
    decide +kernel
  obtain ⟨d, run, ended⟩ := (Option.any_eq_true _ _).mp ends
  obtain ⟨ending, seen⟩ := Option.isSome_iff_exists.mp ended
  have undisturbed : IsUndisturbed 10 30 leavingEarly :=
    ⟨by simp [leavingEarly], by decide +kernel⟩
  obtain ⟨-, whole, -, -⟩ := nothing_lost_on_the_way_out run undisturbed
  exact ⟨d, run, (whole ending seen).2.2⟩

end Dispatch

end ElementAgent

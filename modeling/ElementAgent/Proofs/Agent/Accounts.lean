import ElementAgent.Proofs.Agent.Hindsight
import ElementAgent.Proofs.Call.Conservation
import Mathlib.Data.List.Perm.Basic
import Mathlib.Tactic.SplitIfs

/-!
# Every request has one reply

What an agent owes for a list of requests is known when they are read
(`Setup.replies`). Main statements:

* **steps**: what each event does to an agent, and when it can happen
  (`Agent.Step`, `step_of_step?`);
* **order**: lookups have numbers of their own, and permits are held by lookups or
  free (`Orderly`, `Orderly.step`);
* **places**: the replies to the requests that were read have left, or are in the
  queue, or are with their lookups, or are owed by the reader (`Places`), whatever
  the step, where answers do not depend on when lookups are looked at
  (`Places.step`);
* **accounts**: as long as no write fails they leave with the writer only, and it
  goes last (`Accounts`, `Accounts.step`).
-/

namespace ElementAgent

/-- How many lookups a request makes. -/
def Request.lookups : Request → Nat
  | .lookup .. => 1
  | .health _ => 0

/-- How many lookups a list of requests makes. -/
def lookupsOf : List Request → Nat
  | [] => 0
  | r :: rs => r.lookups + lookupsOf rs

theorem lookupsOf_append (rs more : List Request) :
    lookupsOf (rs ++ more) = lookupsOf rs + lookupsOf more := by
  induction rs with
  | nil => simp [lookupsOf]
  | cons q rs ih => rw [List.cons_append, lookupsOf, ih, lookupsOf, Nat.add_assoc]

theorem lookupsOf_concat (rs : List Request) (r : Request) :
    lookupsOf (rs ++ [r]) = lookupsOf rs + r.lookups := by
  rw [lookupsOf_append]
  rfl

namespace Agent

/-! ## What is owed -/

/-- The reply to a request before which `k` lookups were read. -/
def Setup.reply (s : Setup) (k : Nat) : Request → Reply
  | .lookup id pid => .lookup (s.answer id pid (s.plan k pid))
  | .health id => .health (.serving id)

/-- The replies to requests before which `k` lookups were read, in the order of
the requests. -/
def Setup.replies (s : Setup) : (k : Nat) → List Request → List Reply
  | _, [] => []
  | k, r :: rs => s.reply k r :: s.replies (k + r.lookups) rs

theorem Setup.replies_append (s : Setup) (k : Nat) (rs more : List Request) :
    s.replies k (rs ++ more) =
      s.replies k rs ++ s.replies (k + lookupsOf rs) more := by
  induction rs generalizing k with
  | nil => simp [Setup.replies, lookupsOf]
  | cons r rs ih =>
      have count : k + r.lookups + lookupsOf rs = k + lookupsOf (r :: rs) :=
        Nat.add_assoc ..
      rw [List.cons_append, Setup.replies, ih, count]
      rfl

/-- Where no lookup oversleeps the replies are those that are due. -/
theorem Setup.replies_inHindsight (s : Setup) (k : Nat) (rs : List Request) :
    (s.inHindsight []).replies k rs = s.replies k rs := by
  induction rs generalizing k with
  | nil => rfl
  | cons r rs ih =>
      rw [Setup.replies, Setup.replies, ih]
      cases r with
      | health id => rfl
      | lookup id pid =>
          rw [List.cons.injEq]
          exact ⟨congrArg Reply.lookup (s.answer_inHindsight (s.plan k pid) id pid),
            rfl⟩

theorem Setup.answer_id (s : Setup) (id : UInt64) (pid : Pid) (p : Plan) :
    (s.answer id pid p).id = id := by
  unfold Setup.answer Plan.answer
  split
  · split_ifs
    · unfold replyOf
      split
      · split <;> rfl
      · rfl
    · rfl
  · rfl

theorem Setup.reply_id (s : Setup) (k : Nat) (r : Request) :
    (s.reply k r).id = r.id := by
  cases r with
  | lookup id pid => exact s.answer_id id pid _
  | health id => rfl

theorem Setup.reply_exchange (s : Setup) (k : Nat) (r : Request) :
    (s.reply k r).exchange = r.exchange := by
  cases r <;> rfl

/-- The agent keeps the rules: a found bundle has an id, and a failure comes
without a bundle. -/
theorem Setup.reply_isRejected (s : Setup) (k : Nat) (r : Request) :
    (s.reply k r).isRejected = false := by
  cases r with
  | health id => rfl
  | lookup id pid =>
      show (s.answer id pid (s.plan k pid)).isViolation = false
      unfold Setup.answer Plan.answer
      split
      · split_ifs
        · unfold replyOf
          split
          · split
            · rfl
            case isFalse b _ named =>
                simp [LookupReply.isViolation, LookupReply.verdict,
                  LookupReply.found, named]
          · rfl
        · rfl
      · rfl

/-- The replies are of the kinds and carry the ids of their requests. -/
theorem Setup.replies_kinds (s : Setup) (k : Nat) (rs : List Request) :
    (s.replies k rs).map (fun r => (r.exchange, r.id)) = rs.map fun r =>
      (r.exchange, r.id) := by
  induction rs generalizing k with
  | nil => rfl
  | cons r rs ih =>
      rw [Setup.replies, List.map_cons, List.map_cons, ih, s.reply_id,
        s.reply_exchange]

theorem Setup.replies_ids (s : Setup) (k : Nat) (rs : List Request) :
    (s.replies k rs).map Reply.id = rs.map Request.id := by
  have ids := congrArg (List.map Prod.snd) (s.replies_kinds k rs)
  rw [List.map_map, List.map_map] at ids
  exact ids

theorem Setup.length_replies (s : Setup) (k : Nat) (rs : List Request) :
    (s.replies k rs).length = rs.length := by
  have kinds := congrArg List.length (s.replies_kinds k rs)
  rwa [List.length_map, List.length_map] at kinds

/-- The reply to a request depends on the lookups in front of it. -/
theorem Setup.getElem?_replies (s : Setup) (k : Nat) (rs : List Request) (i : Nat) :
    (s.replies k rs)[i]? = (rs[i]?).map (s.reply (k + lookupsOf (rs.take i))) := by
  induction rs generalizing k i with
  | nil => rfl
  | cons r rs ih =>
      cases i with
      | zero => rfl
      | succ i =>
          have count : k + r.lookups + lookupsOf (rs.take i) =
              k + lookupsOf ((r :: rs).take (i + 1)) :=
            Nat.add_assoc ..
          rw [Setup.replies, List.getElem?_cons_succ,
            List.getElem?_cons_succ, ih, count]

/-- The request that the reader has not dealt with. -/
def Reading.holds : Reading → List Request
  | .holding id pid => [.lookup id pid]
  | .reporting id => [.health id]
  | .ready | .ended => []

def Lookup.reply (s : Setup) (l : Lookup) : Reply :=
  .lookup (s.answer l.id l.pid (s.plan l.number l.pid))

/-! ## Steps -/

/-- What an event finds on the stream. -/
def Event.requests : Event → List Request
  | .receive (.request r) => [r]
  | _ => []

/-- What the writer takes. -/
def taken (a : Agent) : Event → List Reply
  | .take => a.queue.take 1
  | _ => []

/-- What an event does, where it can happen. -/
inductive Step (s : Setup) (a : Agent) : Event → Agent → Prop
  | lookup {id pid} (ready : a.reading = .ready) :
      Step s a (.receive (.request (.lookup id pid)))
        { a with reading := .holding id pid }
  | health {id} (ready : a.reading = .ready) :
      Step s a (.receive (.request (.health id)))
        { a with reading := .reporting id }
  | undecodable (ready : a.reading = .ready) :
      Step s a (.receive .undecodable) { a with reading := .ended }
  | endOfStream (ready : a.reading = .ready) :
      Step s a (.receive .endOfStream) { a with reading := .ended }
  | grant {id pid free} (holds : a.reading = .holding id pid)
      (permit : a.free = free + 1) :
      Step s a .grant { a with
        reading := .ready, free, admitted := a.admitted + 1
        lookups := a.lookups ++ [⟨a.admitted, id, pid, .waiting⟩] }
  | report {id} (holds : a.reading = .reporting id) (alive : a.writing ≠ .ended)
      (room : a.queue.length < s.limit) :
      Step s a .report { a with
        reading := .ready, queue := a.queue ++ [.health (.serving id)] }
  | reportLate {id} (holds : a.reading = .reporting id)
      (gone : a.writing = .ended) :
      Step s a .report { a with reading := .ended }
  | begin {l peak} (held : l ∈ a.lookups) (waits : l.stage = .waiting) :
      Step s a (.begin l.number) { a.setStage l.number (.running a.now) with
        started := l.pid :: a.started, peak }
  | finish {l since} (held : l ∈ a.lookups) (runs : l.stage = .running since)
      (due : s.due l since ≤ a.now) :
      Step s a (.finish l.number)
        (a.setStage l.number
          (.answered ((s.plan l.number l.pid).answer (a.now - since) l.id l.pid)))
  | hand {l r} (held : l ∈ a.lookups) (done : l.stage = .answered r)
      (alive : a.writing ≠ .ended)
      (room : a.queue.length < s.limit) :
      Step s a (.hand l.number)
        { a.release l.number with queue := a.queue ++ [.lookup r] }
  | handLate {l r} (held : l ∈ a.lookups) (done : l.stage = .answered r)
      (gone : a.writing = .ended) : Step s a (.hand l.number) (a.release l.number)
  | take {r rest} (free : a.writing = .idle) (next : a.queue = r :: rest) :
      Step s a .take { a with writing := .busy r, queue := rest }
  | wrote {r} (busy : a.writing = .busy r) :
      Step s a .wrote { a with writing := .idle }
  | writeFailed {r} (busy : a.writing = .busy r) :
      Step s a .writeFailed { a with writing := .ended, queue := [] }
  | writerDone (read : a.reading = .ended) (answered : a.lookups = [])
      (written : a.queue = [])
      (free : a.writing = .idle) : Step s a .writerDone { a with writing := .ended }
  | elapse {ms} : Step s a (.elapse ms) { a with now := a.now + ms }

variable {s : Setup} {a a' : Agent} {e : Event} {n : Nat} {l : Lookup}

theorem find?_eq_some (found : a.find? n = some l) : l ∈ a.lookups ∧ l.number = n :=
  ⟨List.mem_of_find?_eq_some found, by simpa using List.find?_some found⟩

theorem step_of_step? (h : a.step? s e = some a') : Step s a e a' := by
  cases e with
  | receive i =>
      simp only [step?] at h
      split at h
      case h_2 => cases h
      case h_1 ready =>
          cases h
          cases i with
          | request r =>
              cases r with
              | lookup id pid => exact .lookup ready
              | health id => exact .health ready
          | undecodable => exact .undecodable ready
          | endOfStream => exact .endOfStream ready
  | grant =>
      simp only [step?] at h
      split at h
      case h_1 holds permit => cases h; exact .grant holds permit
      case h_2 => cases h
  | report =>
      simp only [step?] at h
      split at h
      case h_2 => cases h
      case h_1 holds =>
          by_cases gone : a.writing = .ended
          · rw [if_pos gone] at h
            cases h
            exact .reportLate holds gone
          · rw [if_neg gone] at h
            split_ifs at h with room
            cases h
            exact .report holds gone room
  | begin number =>
      simp only [step?] at h
      split at h
      case h_2 => cases h
      case h_1 found =>
          obtain ⟨held, rfl⟩ := find?_eq_some found
          cases h
          exact .begin held rfl
  | finish number =>
      simp only [step?] at h
      split at h
      case h_2 => cases h
      case h_1 l found =>
          obtain ⟨held, rfl⟩ := find?_eq_some found
          split at h
          case h_2 => cases h
          case h_1 runs =>
              split_ifs at h with due
              cases h
              exact .finish held runs due
  | hand number =>
      simp only [step?] at h
      split at h
      case h_2 => cases h
      case h_1 found =>
          obtain ⟨held, rfl⟩ := find?_eq_some found
          by_cases gone : a.writing = .ended
          · rw [if_pos gone] at h
            cases h
            exact .handLate held rfl gone
          · rw [if_neg gone] at h
            split_ifs at h with room
            cases h
            exact .hand held rfl gone room
  | take =>
      simp only [step?] at h
      split at h
      case h_1 free next => cases h; exact .take free next
      case h_2 => cases h
  | wrote =>
      simp only [step?] at h
      split at h
      case h_1 busy => cases h; exact .wrote busy
      case h_2 => cases h
  | writeFailed =>
      simp only [step?] at h
      split at h
      case h_1 busy => cases h; exact .writeFailed busy
      case h_2 => cases h
  | writerDone =>
      simp only [step?] at h
      split at h
      case h_1 read answered written free =>
        cases h; exact .writerDone read answered written free
      case h_2 => cases h
  | elapse ms =>
      cases h
      exact .elapse

/-! ## Changing one lookup -/

section Frames

variable (a : Agent) (n : Nat) (stage : Stage)

@[simp] theorem setStage_reading : (a.setStage n stage).reading = a.reading := rfl
@[simp] theorem setStage_admitted :
    (a.setStage n stage).admitted = a.admitted := rfl
@[simp] theorem setStage_queue : (a.setStage n stage).queue = a.queue := rfl
@[simp] theorem setStage_writing : (a.setStage n stage).writing = a.writing := rfl
@[simp] theorem release_reading : (a.release n).reading = a.reading := rfl
@[simp] theorem release_admitted : (a.release n).admitted = a.admitted := rfl
@[simp] theorem release_queue : (a.release n).queue = a.queue := rfl
@[simp] theorem release_writing : (a.release n).writing = a.writing := rfl

end Frames

@[simp] theorem setStage_numbers (a : Agent) (n : Nat) (stage : Stage) :
    (a.setStage n stage).lookups.map Lookup.number =
      a.lookups.map Lookup.number := by
  simp only [setStage, List.map_map]
  refine List.map_congr_left fun l _ => ?_
  simp only [Function.comp_apply]
  split <;> rfl

/-- A lookup's reply does not depend on how far it has come. -/
@[simp] theorem setStage_replies (s : Setup) (a : Agent) (n : Nat) (stage : Stage) :
    (a.setStage n stage).lookups.map (Lookup.reply s) =
      a.lookups.map (Lookup.reply s) := by
  simp only [setStage, List.map_map]
  refine List.map_congr_left fun l _ => ?_
  simp only [Function.comp_apply]
  split <;> rfl

/-- A lookup after another was moved to a stage: it is one of before, or the one
that was moved. -/
theorem mem_setStage {stage : Stage} (held : l ∈ (a.setStage n stage).lookups) :
    l ∈ a.lookups ∨ ∃ before ∈ a.lookups, before.number = n ∧
    l = { before with stage } := by
  obtain ⟨before, held, same⟩ := List.mem_map.mp held
  by_cases moved : before.number = n
  · rw [if_pos (by simpa using moved)] at same
    exact .inr ⟨before, held, moved, same.symm⟩
  · rw [if_neg (by simpa using moved)] at same
    exact .inl (same ▸ held)

/-- Taking a lookup off the list takes off that one. -/
theorem perm_release (nodup : (a.lookups.map Lookup.number).Nodup)
    (held : l ∈ a.lookups) :
    a.lookups.Perm (l :: (a.release l.number).lookups) := by
  have split := Keyed.perm_cons_filter_ne nodup held
  have same : (a.release l.number).lookups = a.lookups.filter fun m =>
      m.number ≠ l.number := by
    simp only [release]
    refine List.filter_congr fun m _ => ?_
    simp [bne, beq_eq_decide]
  rwa [same]

/-- Moving a lookup to a stage moves that one. -/
theorem perm_setStage (nodup : (a.lookups.map Lookup.number).Nodup)
    (held : l ∈ a.lookups) (stage : Stage) :
    (a.setStage l.number stage).lookups.Perm
      ({ l with stage } :: (a.release l.number).lookups) := by
  have moved := (perm_release nodup held).map fun m =>
    if m.number == l.number then { m with stage } else m
  have others : (a.release l.number).lookups.map (fun m =>
      if m.number == l.number then { m with stage }
      else m) = (a.release l.number).lookups := by
    rw [List.map_congr_left fun m kept => ?_, List.map_id]
    exact if_neg (by simpa [bne] using (List.mem_filter.mp kept).2)
  rw [List.map_cons, others, if_pos (by simp)] at moved
  exact moved

/-! ## Order -/

/-- Lookups are kept in order. -/
structure Orderly (s : Setup) (a : Agent) : Prop where
  /-- Every permit is free or held by one lookup. -/
  permits : a.free + a.lookups.length = s.limit
  numbers : (a.lookups.map Lookup.number).Nodup
  admitted : ∀ l ∈ a.lookups, l.number < a.admitted

namespace Orderly

theorem start (s : Setup) : Orderly s (fresh s) where
  permits := rfl
  numbers := List.nodup_nil
  admitted := by simp [fresh]

/-- A lookup may be moved to a stage. -/
theorem setStage (h : Orderly s a) (n : Nat) (stage : Stage) :
    Orderly s (a.setStage n stage) where
  permits := by
    have same := congrArg List.length (setStage_numbers a n stage)
    simp only [List.length_map] at same
    rw [same]
    exact h.permits
  numbers := by
    rw [setStage_numbers]
    exact h.numbers
  admitted := by
    intro l moved
    rcases mem_setStage moved with same | ⟨before, held, -, rfl⟩
    · exact h.admitted l same
    · exact h.admitted before held

theorem release (h : Orderly s a) (held : l ∈ a.lookups) :
    Orderly s (a.release l.number) where
  permits := by
    have split := (perm_release h.numbers held).length_eq
    have permits := h.permits
    simp only [List.length_cons] at split
    show a.free + 1 + _ = _
    omega
  numbers := h.numbers.sublist (List.filter_sublist.map _)
  admitted := fun m kept => h.admitted m (List.mem_of_mem_filter kept)

theorem step (h : Orderly s a) (step : Step s a e a') : Orderly s a' := by
  cases step with
  | lookup | health | undecodable | endOfStream | report | reportLate | take | wrote
  | writeFailed | writerDone | elapse => exact { h with }
  | grant holds permit =>
      refine { permits := ?permits, numbers := ?numbers, admitted := ?admitted }
      case permits =>
        have permits := h.permits
        simp only [List.length_append, List.length_singleton]
        omega
      case numbers =>
        -- the new lookup has a higher number than all that were admitted
        simp only [List.map_append, List.map_cons, List.map_nil]
        refine List.nodup_append.mpr ⟨h.numbers, List.nodup_singleton _, ?_⟩
        intro m old k new same
        obtain ⟨l, held, rfl⟩ := List.mem_map.mp old
        rw [List.mem_singleton.mp new] at same
        exact absurd same (Nat.ne_of_lt (h.admitted l held))
      case admitted =>
        intro l held
        rcases List.mem_append.mp held with old | new
        · exact Nat.lt_succ_of_lt (h.admitted l old)
        · rw [List.mem_singleton.mp new]
          exact Nat.lt_succ_self _
  | @begin l peak held waits =>
      have moved := h.setStage l.number (.running a.now)
      exact { moved with }
  | finish held runs due => exact h.setStage _ _
  | hand held done alive room =>
      have left := h.release held
      exact { left with }
  | handLate held done gone => exact h.release held

end Orderly

theorem orderly_of_run {es : List Event}
    (run : es.foldlM (step? s) (fresh s) = some a) : Orderly s a :=
  Run.induct (P := fun _ a => Orderly s a) (.start s)
    (fun _ _ _ _ _ h step => h.step (step_of_step? step)) run

/-- A lookup is found by its number. -/
theorem find?_of_mem (o : Orderly s a) (held : l ∈ a.lookups) :
    a.find? l.number = some l := by
  cases found : a.find? l.number with
  | none =>
      have other := List.find?_eq_none.mp found l held
      simp at other
  | some m =>
      obtain ⟨mem, number⟩ := find?_eq_some found
      rw [List.inj_on_of_nodup_map o.numbers mem held number]

/-! ## Places -/

/-- What is lost because the writer was gone before it. -/
def late (a : Agent) (e : Event) : List Reply :=
  if a.writing = .ended then
    match e with
    | .report =>
      match a.reading with
      | .reporting id => [.health (.serving id)]
      | _ => []
    | .hand number =>
      match a.find? number with
      | some ⟨_, _, _, .answered r⟩ => [.lookup r]
      | _ => []
    | _ => []
  else []

/-- What leaves the reader, the lookups and the queue: the writer takes
it, or it is lost. -/
def leaves (a : Agent) : Event → List Reply
  | .take => a.queue.take 1
  | .writeFailed => a.queue
  | e => a.late e

/-- The reply of a lookup is lost if the writer has ended before it. -/
theorem late_hand (o : Orderly s a) {r : LookupReply} (held : l ∈ a.lookups)
    (done : l.stage = .answered r) (gone : a.writing = .ended) :
    a.late (.hand l.number) = [.lookup r] := by
  obtain ⟨number, id, pid, stage⟩ := l
  subst done
  simp only [late, if_pos gone, find?_of_mem o held]

/-- Every reply that is owed is in one place. -/
structure Places (s : Setup) (a : Agent) (asked : List Request)
    (gone : List Reply) : Prop where
  /-- What a lookup has been answered is its answer. -/
  answered : ∀ l ∈ a.lookups, ∀ r, l.stage = .answered r →
    Reply.lookup r = l.reply s
  replies : (s.replies 0 asked).Perm
    (gone ++ a.queue ++ a.lookups.map (Lookup.reply s) ++
      a.reading.holds.map (s.reply a.admitted))
  /-- Every lookup that was read has been given a permit, or is
  waiting for one. -/
  lookups : a.admitted + lookupsOf a.reading.holds = lookupsOf asked

namespace Places

variable {asked : List Request} {gone : List Reply}

theorem start (s : Setup) : Places s (fresh s) [] [] :=
  ⟨by simp [fresh], .refl _, rfl⟩

theorem read (h : Places s a asked gone) (ready : a.reading = .ready) {r : Request}
    {reading : Reading} (holds : reading.holds = [r]) :
    Places s { a with reading } (asked ++ [r]) gone := by
  obtain ⟨answered, replies, lookups⟩ := h
  rw [ready] at lookups replies
  simp only [Reading.holds, List.map_nil, List.append_nil] at replies
  have counted : a.admitted = lookupsOf asked := lookups
  refine ⟨answered, ?_, ?_⟩
  · rw [s.replies_append, Nat.zero_add, ← counted]
    simp only [holds, List.map_cons, List.map_nil]
    exact replies.append_right _
  · rw [lookupsOf_concat, counted, holds]
    simp [lookupsOf]

theorem stop (h : Places s a asked gone) (ready : a.reading = .ready) :
    Places s { a with reading := .ended } asked gone := by
  obtain ⟨answered, replies, lookups⟩ := h
  rw [ready] at lookups replies
  exact ⟨answered, replies, lookups⟩

/-- Where answers do not depend on when lookups are looked at, lookups are
answered their answers. -/
theorem answered_step [s.IsDecided] (h : Places s a asked gone) (o : Orderly s a)
    (step : Step s a e a') :
    ∀ l ∈ a'.lookups, ∀ r, l.stage = .answered r → Reply.lookup r = l.reply s := by
  cases step with
  | grant holds permit =>
      intro l held r done
      rcases List.mem_append.mp held with old | new
      · exact h.answered l old r done
      · rw [List.mem_singleton.mp new] at done
        cases done
  | begin held waits =>
      intro l moved r done
      rcases mem_setStage moved with same | ⟨before, held, -, rfl⟩
      · exact h.answered l same r done
      · cases done
  | @finish l since held runs due =>
      intro m moved r done
      rcases mem_setStage moved with same | ⟨before, listed, named, rfl⟩
      · exact h.answered m same r done
      · -- numbers are unique: the lookup that is moved is the one that was found
        have one : before = l :=
          List.inj_on_of_nodup_map o.numbers listed held named
        subst one
        cases done
        rw [Plan.answer_eq_of_decided s (Nat.le_sub_of_add_le' due)]
        rfl
  | hand | handLate =>
      exact fun l kept => h.answered l (List.mem_of_mem_filter kept)
  | _ => exact h.answered

/-- Every step keeps account of the replies. -/
theorem step [s.IsDecided] (h : Places s a asked gone) (o : Orderly s a)
    (step : Step s a e a') :
    Places s a' (asked ++ e.requests) (gone ++ a.leaves e) := by
  have replies := h.replies
  have lookups := h.lookups
  have answered := h.answered_step o step
  cases step with
  | lookup ready | health ready =>
      simp only [leaves, late, Event.requests, ite_self, List.append_nil]
      exact h.read ready rfl
  | undecodable ready | endOfStream ready =>
      simp only [leaves, late, Event.requests, ite_self, List.append_nil]
      exact h.stop ready
  | @grant id pid free holds permit =>
      simp only [leaves, late, Event.requests, ite_self, List.append_nil]
      rw [holds] at lookups replies
      exact ⟨answered, by simpa [Reading.holds, Lookup.reply,
        Setup.reply] using replies, lookups⟩
  | @report id holds alive room =>
      simp only [leaves, late, if_neg alive, Event.requests, List.append_nil]
      rw [holds] at lookups replies
      refine ⟨answered, ?_, lookups⟩
      -- the reply goes from the reader to the end of the queue, past the lookups
      refine replies.trans (List.perm_iff_count.mpr fun r => ?_)
      simp only [Reading.holds, List.map_cons, List.map_nil, List.count_append,
        List.count_nil, Setup.reply]
      omega
  | @reportLate id holds dead =>
      simp only [leaves, late, if_pos dead, holds, Event.requests, List.append_nil]
      rw [holds] at lookups replies
      refine ⟨answered, ?_, lookups⟩
      refine replies.trans (List.perm_iff_count.mpr fun r => ?_)
      simp only [Reading.holds, List.map_cons, List.map_nil, List.count_append,
        List.count_nil, Setup.reply]
      omega
  | begin | finish =>
      simp only [leaves, late, Event.requests, ite_self, List.append_nil]
      exact ⟨answered, by simpa using replies, lookups⟩
  | @hand l r held done alive room =>
      simp only [leaves, late, if_neg alive, Event.requests, List.append_nil]
      refine ⟨answered, ?_, lookups⟩
      -- the reply goes from its lookup to the end of the queue
      have split := (perm_release o.numbers held).map (Lookup.reply s)
      have answer := h.answered l held r done
      refine replies.trans (List.perm_iff_count.mpr fun q => ?_)
      have count := split.count_eq q
      simp only [List.map_cons, ← answer, List.count_cons] at count
      simp only [List.count_append, List.count_singleton, release_reading,
        release_admitted]
      omega
  | @handLate l r held done dead =>
      simp only [leaves, late_hand o held done dead, Event.requests,
        List.append_nil]
      refine ⟨answered, ?_, lookups⟩
      have split := (perm_release o.numbers held).map (Lookup.reply s)
      have answer := h.answered l held r done
      refine replies.trans (List.perm_iff_count.mpr fun q => ?_)
      have count := split.count_eq q
      simp only [List.map_cons, ← answer, List.count_cons] at count
      simp only [List.count_append, List.count_singleton, release_reading,
        release_admitted, release_queue]
      omega
  | take free next =>
      simp only [leaves, Event.requests, List.append_nil, next]
      exact ⟨answered, by simpa [next] using replies, lookups⟩
  | writeFailed busy =>
      simp only [leaves, Event.requests, List.append_nil]
      exact ⟨answered, by simpa using replies, lookups⟩
  | wrote | writerDone | elapse =>
      simp only [leaves, late, Event.requests, ite_self, List.append_nil]
      exact ⟨answered, replies, lookups⟩

end Places

/-! ## Accounts -/

/-- Every reply that is owed is in one place, and the writer goes last. -/
structure Accounts (s : Setup) (a : Agent) (asked : List Request)
    (out : List Reply) : Prop
    extends Places s a asked out where
  last : a.writing = .ended → a.reading = .ended ∧ a.lookups = [] ∧ a.queue = []

namespace Accounts

variable {asked : List Request} {out : List Reply}

theorem start (s : Setup) : Accounts s (fresh s) [] [] :=
  ⟨.start s, fun never => by cases never⟩

/-- Once reader and writer have ended everything has been taken. -/
theorem served (h : Accounts s a asked out) (ended : a.writing = .ended) :
    (s.replies 0 asked).Perm out := by
  obtain ⟨read, answered, written⟩ := h.last ended
  have all := h.replies
  rw [read, answered, written] at all
  simpa [Reading.holds] using all

/-- Where the writer goes last, replies leave with it only, unless it fails. -/
theorem leaves_eq_taken (h : Accounts s a asked out) (step : Step s a e a')
    (writes : e ≠ .writeFailed) : a.leaves e = a.taken e := by
  cases step with
  | writeFailed => exact absurd rfl writes
  | report holds alive room => simp only [leaves, late, if_neg alive, taken]
  | hand held done alive room => simp only [leaves, late, if_neg alive, taken]
  | @reportLate id holds gone =>
      -- the writer does not go before the reader
      have stopped := (h.last gone).1
      rw [holds] at stopped
      cases stopped
  | @handLate l r held done gone =>
      -- nor before the lookups
      rw [(h.last gone).2.1] at held
      cases held
  | take => rfl
  | _ => simp only [leaves, late, ite_self, taken]

/-- Every step but a failed write leaves the writer the last one to go. -/
theorem last_step (h : Accounts s a asked out) (step : Step s a e a')
    (writes : e ≠ .writeFailed) :
    a'.writing = .ended → a'.reading = .ended ∧ a'.lookups = [] ∧
    a'.queue = [] := by
  intro ended
  cases step with
  | writeFailed => exact absurd rfl writes
  | writerDone read none written free => exact ⟨read, none, written⟩
  | begin held waits =>
      rw [(h.last ended).2.1] at held
      cases held
  | finish held runs due =>
      rw [(h.last ended).2.1] at held
      cases held
  | elapse => exact h.last ended
  | report holds alive room => exact absurd ended alive
  | hand held done alive room => exact absurd ended alive
  | take | wrote => cases ended
  | handLate held done gone =>
      rw [(h.last gone).2.1] at held
      cases held
  | lookup ready | health ready | undecodable ready | endOfStream ready =>
      have stopped := (h.last ended).1
      rw [ready] at stopped
      cases stopped
  | grant holds _ | reportLate holds _ =>
      have stopped := (h.last ended).1
      rw [holds] at stopped
      cases stopped

/-- Every step but a failed write keeps account of the replies. -/
theorem step [s.IsDecided] (h : Accounts s a asked out) (o : Orderly s a)
    (step : Step s a e a') (writes : e ≠ .writeFailed) :
    Accounts s a' (asked ++ e.requests) (out ++ a.taken e) := by
  have places := h.toPlaces.step o step
  rw [h.leaves_eq_taken step writes] at places
  exact ⟨places, h.last_step step writes⟩

end Accounts

end Agent

end ElementAgent

import ElementAgent.CommandLine.Program
import ElementAgent.Proofs.Call.Conservation
import ElementAgent.Proofs.Wire.Receptions

/-!
# Single calls tell the truth

A command that makes one call prints its line if and only if the far end gave it
the right reply in time. What counts is the first reply with the id of the call
(`OneShot.answer?`) in what the far end writes before the limit and before it
closes (`PeerAct.within`), up to the first fault. Main statements:

* **calls**: a call that is alone in its table is completed by the first reply
  with its id, and by nothing else but the end of reading
  (`CallTable.IsAlone.receiveAll`);
* **waiting**: what a call comes to before its limit is the verdict of that reply,
  and without it there is none, or a failed connection (`OneShot.await_eq`);
* **commands**: what is printed, and with which status the program ends
  (`single_calls_print`).
-/

namespace ElementAgent

/-! ## A call that is alone -/

namespace CallTable

variable {t : CallTable} {x : Exchange} {o : Completion} {r : Reply}
  {rs : List Reply}

/-- The first call is outstanding, and there is no other. -/
structure IsAlone (x : Exchange) (t : CallTable) : Prop where
  pending : t.pending = [(0, ⟨0, x⟩)]
  completed : t.completed = []

/-- The first call is completed, and there is no other. -/
structure IsDone (o : Completion) (t : CallTable) : Prop where
  pending : t.pending = []
  completed : t.completed = [(0, o)]

theorem isAlone_issue (x : Exchange) : (empty.issue x).IsAlone x := ⟨rfl, rfl⟩

/-- No reply touches a call that is completed. -/
theorem IsDone.receive (h : t.IsDone o) (r : Reply) : (t.receive r).IsDone o := by
  rw [receive_of_foreign (by simp [h.pending])]
  exact ⟨h.pending, h.completed⟩

theorem IsDone.receiveAll (h : t.IsDone o) (rs : List Reply) :
    (rs.foldl CallTable.receive t).IsDone o := by
  induction rs generalizing t with
  | nil => exact h
  | cons r rs ih => exact ih (h.receive r)

theorem IsDone.close (h : t.IsDone o) (why : Disconnect) :
    (t.close why).IsDone o := by
  rw [CallTable.close, h.pending]
  exact ⟨rfl, h.completed⟩

theorem IsAlone.close (h : t.IsAlone x) (why : Disconnect) :
    (t.close why).IsDone (.failed x why.error) := by
  rw [CallTable.close, h.pending]
  exact ⟨rfl, congrArg _ h.completed⟩

/-- A reply with another id leaves the call alone. -/
theorem IsAlone.receive_other (h : t.IsAlone x) (other : r.id ≠ 0) :
    (t.receive r).IsAlone x := by
  rw [receive_of_foreign (by simpa [h.pending] using other.symm)]
  exact ⟨h.pending, h.completed⟩

/-- A reply with its id completes it. -/
theorem IsAlone.receive_own (h : t.IsAlone x) (own : r.id = 0) :
    (t.receive r).IsDone (r.verdict x) := by
  have found : t.remove r.id = some (⟨0, x⟩, { t with pending := [] }) := by
    simp [remove, h.pending, own]
  rw [receive_of_remove found]
  exact ⟨by simp [h.pending, own], by simp [h.completed]⟩

/-- Of many replies the first with its id completes it. -/
theorem IsAlone.receiveAll (h : t.IsAlone x) (rs : List Reply) :
    match rs.find? (·.id = 0) with
    | some r => (rs.foldl receive t).IsDone (r.verdict x)
    | none => (rs.foldl receive t).IsAlone x := by
  induction rs generalizing t with
  | nil => exact h
  | cons r rs ih =>
      by_cases own : r.id = 0
      · rw [List.find?_cons_of_pos (by simpa using own)]
        exact (h.receive_own own).receiveAll rs
      · rw [List.find?_cons_of_neg (by simpa using own)]
        exact ih (h.receive_other own)

end CallTable

/-! ## What a far end says in time -/

/-- The bytes that a far end writes before the time `limit`, if it acts from the
time `now` on, up to where it closes. -/
def PeerAct.within (limit now : Nat) : List (Nat × PeerAct) → List UInt8
  | [] => []
  | (wait, act) :: rest =>
    if now + wait < limit then
      match act with
      | .write bytes => bytes ++ within limit (now + wait) rest
      | .close => []
    else []

namespace OneShot

open Wire (messages decodeReply Reception)

/-- The first reply with the id of the only call, in front of the first fault. -/
def answer? (bytes : List UInt8) : Option Reply :=
  (messages decodeReply bytes).find? (·.id = 0)

variable {s : OneShot} {x : Exchange} {stream : List UInt8}

/-- The call has no answer yet. -/
structure Waits (x : Exchange) (s : OneShot) (stream : List UInt8) : Prop where
  alone : s.calls.IsAlone x
  heard : ∃ as, s.reception.Heard decodeReply stream as
  listens : s.reception.ending = none
  unanswered : answer? stream = none

/-- The call is over, whatever else the far end writes. -/
inductive IsOver (x : Exchange) (s : OneShot) (stream : List UInt8) : Prop
  | answered {r} (first : ∀ more, answer? (stream ++ more) = some r)
      (told : s.outcome? = some (r.verdict x))
  | failed {why : Disconnect} (silent : ∀ more, answer? (stream ++ more) = none)
      (told : s.outcome? = some (.failed x why.error))

theorem outcome?_of_isDone {o : Completion} (h : s.calls.IsDone o) :
    s.outcome? = some o := by
  rw [outcome?, h.completed]
  rfl

theorem outcome?_of_isAlone (h : s.calls.IsAlone x) : s.outcome? = none := by
  rw [outcome?, h.completed]
  rfl

theorem waits_start (x : Exchange) : Waits x (start x) [] :=
  ⟨CallTable.isAlone_issue x, ⟨[], Wire.Reception.heard_fresh⟩, rfl,
    by rw [answer?, Wire.messages_nil]; rfl⟩

/-- An answer stays the first one, whatever follows. -/
theorem answer?_append {bytes : List UInt8} {r : Reply}
    (first : answer? bytes = some r)
    (more : List UInt8) : answer? (bytes ++ more) = some r := by
  obtain ⟨later, all⟩ := Wire.messages_prefix decodeReply bytes more
  rw [answer?] at first ⊢
  rw [← all, List.find?_append, first]
  rfl

/-- Settling a call that is done leaves it as it is. -/
theorem settle_of_isDone {o : Completion} (h : s.calls.IsDone o) :
    s.settle.calls.IsDone o := by
  unfold settle
  split
  · exact h
  · exact h.close _
  · exact h.close _

/-- Settling a call that is alone, once reading has ended, fails it. -/
theorem settle_of_isAlone (h : s.calls.IsAlone x)
    (ended : s.reception.ending ≠ none) :
    ∃ why : Disconnect, s.settle.calls.IsDone (.failed x why.error) := by
  unfold settle
  split
  · rename_i open_
    exact absurd open_ ended
  · exact ⟨_, h.close _⟩
  · exact ⟨_, h.close _⟩

/-- What the far end writes leaves the call waiting or is the end of it. -/
theorem Waits.hear_write (h : Waits x s stream) (bytes : List UInt8) :
    Waits x (s.hear (.write bytes)) (stream ++ bytes) ∨
    IsOver x (s.hear (.write bytes)) (stream ++ bytes) := by
  obtain ⟨as, heard⟩ := h.heard
  have heard' := heard.feed h.listens bytes
  have all := heard'.messages_eq
  have before := h.unanswered
  rw [answer?, heard.messages_eq] at before
  simp only [hear]
  generalize s.reception.feed decodeReply bytes = out at heard' all
  obtain ⟨replies, reception⟩ := out
  have first : answer? (stream ++ bytes) = replies.find? (·.id = 0) := by
    rw [answer?, all, List.find?_append, before, Option.none_or]
  have received := h.alone.receiveAll replies
  cases found : replies.find? (·.id = 0) with
  | some r =>
      rw [found] at first received
      exact .inr (.answered (answer?_append first)
        (outcome?_of_isDone (settle_of_isDone received)))
  | none =>
      rw [found] at first received
      by_cases open_ : reception.ending = none
      · refine .inl ⟨?_, ⟨as ++ replies, ?_⟩, ?_, first⟩
        · simpa only [settle, open_] using received
        · simpa only [settle, open_] using heard'
        · simp only [settle, open_]
      · obtain ⟨why, failed⟩ := settle_of_isAlone
          (s := ⟨replies.foldl CallTable.receive s.calls, reception⟩) received open_
        refine .inr (.failed (fun more => ?_) (outcome?_of_isDone failed))
        rw [answer?, heard'.deaf open_ more, ← all]
        exact first

/-- When the far end closes, the call fails. -/
theorem Waits.hear_close (h : Waits x s stream) :
    ∃ why : Disconnect, (s.hear .close).outcome? = some (.failed x why.error) := by
  have ended : (s.reception.finish decodeReply).ending ≠ none := by
    intro open_
    have some : (s.reception.finish decodeReply).ending.isNone = false :=
      Wire.Reception.isNone_ending_finish s.reception
    rw [open_] at some
    cases some
  obtain ⟨why, failed⟩ := settle_of_isAlone
    (s := { s with reception := s.reception.finish decodeReply }) h.alone ended
  exact ⟨why, outcome?_of_isDone failed⟩

/-- What a call comes to in time is the verdict of the first reply with its id.
Without such a reply it comes to nothing, or fails with the connection. -/
theorem Waits.await_eq (h : Waits x s stream) (limit now : Nat)
    (acts : List (Nat × PeerAct)) :
    match answer? (stream ++ PeerAct.within limit now acts) with
    | some r => s.await limit now acts = some (r.verdict x)
    | none => s.await limit now acts = none ∨
        ∃ why : Disconnect, s.await limit now acts =
          some (.failed x why.error) := by
  induction acts generalizing s stream now with
  | nil =>
      rw [PeerAct.within, List.append_nil, h.unanswered]
      exact .inl rfl
  | cons step rest ih =>
      obtain ⟨wait, act⟩ := step
      by_cases timely : now + wait < limit
      · cases act with
        | close =>
            obtain ⟨why, failed⟩ := h.hear_close
            simp only [PeerAct.within, await, if_pos timely, List.append_nil,
              h.unanswered, failed]
            exact .inr ⟨why, rfl⟩
        | write bytes =>
            simp only [PeerAct.within, await, if_pos timely]
            rw [← List.append_assoc]
            rcases h.hear_write bytes with waits | ⟨first, told⟩ | ⟨silent, told⟩
            · simp only [outcome?_of_isAlone waits.alone]
              exact ih waits _
            · simp only [first, told]
            · simp only [silent, told]
              exact .inr ⟨_, rfl⟩
      · simp only [PeerAct.within, await, if_neg timely, List.append_nil,
          h.unanswered]
        exact .inl trivial

end OneShot

/-! ## What is printed -/

/-- A lookup comes to a bundle id by the reply that names it, and by no other. -/
theorem LookupReply.outcome_eq_ok_iff {r : LookupReply} {b : String} :
    r.outcome = .ok b ↔ r = .found r.id b ∧ b ≠ "" := by
  obtain ⟨id, _ | bundle, _ | failure⟩ := r
  · simp [LookupReply.outcome, LookupReply.verdict, LookupReply.found]
  · simp [LookupReply.outcome, LookupReply.verdict, LookupReply.found]
  · by_cases empty : bundle = ""
    · subst empty
      constructor
      · rintro ⟨⟩
      · rintro ⟨⟨⟩, named⟩
        exact absurd rfl named
    · simp only [LookupReply.outcome, LookupReply.verdict, LookupReply.found,
        String.isEmpty_iff, empty, if_false]
      constructor
      · rintro ⟨⟩
        exact ⟨rfl, empty⟩
      · rintro ⟨⟨⟩, -⟩
        rfl
  · simp [LookupReply.outcome, LookupReply.verdict, LookupReply.found]

/-- The characters that become a small letter: that letter and the capital one. -/
theorem toLower_eq_iff {c capital small : Char}
    (letter : 'A'.val ≤ capital.val ∧ capital.val ≤ 'Z'.val)
    (pair : small.val = capital.val + 32) :
    c.toLower = small ↔ c = small ∨ c = capital := by
  have first : 'A'.val.toNat = 65 := rfl
  have last : 'Z'.val.toNat = 90 := rfl
  have shift : (32 : UInt32).toNat = 32 := rfl
  have value := congrArg UInt32.toNat pair
  rw [UInt32.toNat_add, shift] at value
  simp only [UInt32.le_iff_toNat_le] at letter
  unfold Char.toLower
  split_ifs with upper
  · have other : c ≠ small := by
      rintro rfl
      have above := UInt32.le_iff_toNat_le.mp upper.2
      omega
    simp only [other, false_or, Char.ext_iff, pair]
    exact UInt32.add_left_inj 32
  · have other : c ≠ capital := by
      rintro rfl
      exact upper letter
    simp only [other, or_false]

/-- A report says that the agent serves if its status is `ok`, in any case. -/
theorem HealthReport.isServing_iff {r : HealthReport} :
    r.isServing = true ↔ r.status ∈ ["ok", "oK", "Ok", "OK"] := by
  have letter_o (c : Char) : c.toLower = 'o' ↔ c = 'o' ∨ c = 'O' :=
    toLower_eq_iff (by decide) rfl
  have letter_k (c : Char) : c.toLower = 'k' ↔ c = 'k' ∨ c = 'K' :=
    toLower_eq_iff (by decide) rfl
  constructor
  · intro serves
    simp only [HealthReport.isServing, beq_iff_eq, List.map_eq_cons_iff,
      List.map_eq_nil_iff, letter_o, letter_k] at serves
    obtain ⟨o, rest, all, first, k, rest', rfl, second, rfl⟩ := serves
    simp only [List.mem_cons, List.not_mem_nil, or_false, ← String.toList_inj, all]
    rcases first with rfl | rfl <;> rcases second with rfl | rfl <;> simp
  · have spelled : ∀ s ∈ ["ok", "oK", "Ok", "OK"], s.toList.map Char.toLower =
        ['o', 'k'] := by
      decide +kernel
    intro listed
    exact beq_iff_eq.mpr (spelled _ listed)

/-- A lookup is told of a bundle id by the reply that names it. -/
theorem Reply.verdict_lookup_eq_ok_iff {r : Reply} {b : String} :
    r.verdict .lookup = .lookup (.ok b) ↔ r = .lookup (.found r.id b) ∧ b ≠ "" := by
  cases r with
  | lookup r => simp [verdict, Reply.id, LookupReply.outcome_eq_ok_iff]
  | health r => simp [verdict, Completion.failed]

/-- A health check is told of a report by that report. -/
theorem Reply.verdict_health_eq_ok_iff {r : Reply} {report : HealthReport} :
    r.verdict .health = .health (.ok report) ↔ r = .health report := by
  cases r <;> simp [verdict, Completion.failed]

namespace OneShot

/-- The reply with the id of the only call is about the only call. -/
theorem id_of_answer? {bytes : List UInt8} {r : Reply}
    (first : answer? bytes = some r) : r.id = 0 := by
  have found := List.find?_some first
  simpa using found

/-- A call comes to a success by the verdict of its answer alone. -/
theorem await_start_eq_some_iff {x : Exchange} {o : Completion}
    (success : ∀ e, o ≠ .failed x e) (limit now : Nat)
    (acts : List (Nat × PeerAct)) :
    (start x).await limit now acts = some o ↔
      ∃ r, answer? (PeerAct.within limit now acts) = some r ∧ r.verdict x = o := by
  have comes := (waits_start x).await_eq limit now acts
  rw [List.nil_append] at comes
  cases first : answer? (PeerAct.within limit now acts) with
  | some r =>
      rw [first] at comes
      simp [comes]
  | none =>
      rw [first] at comes
      rcases comes with silent | ⟨why, failed⟩
      · simp [silent]
      · simp [failed, (success _).symm]

end OneShot

/-- What a far end answers to a request before a limit, if it acts from
the time `now` on. -/
def Peer.answer? (p : Peer) (limit now : Nat) (r : Request) : Option Reply :=
  OneShot.answer? (PeerAct.within limit now (p.acts r))

theorem timeoutFault?_eq_none_iff {timeout : UInt64} :
    timeoutFault? timeout = none ↔ timeout ≠ 0 := by
  unfold timeoutFault?
  split_ifs with zero <;> simp [zero]

/-- A lookup comes to a bundle id exactly if its answer names it in time. -/
theorem LookupOptions.run_eq_ok_iff {o : LookupOptions} {path : Path} {peer : Peer}
    {b : String} :
    o.run path peer = .ok b ↔ o.timeout ≠ 0 ∧ (∃ t, peer.connect = .ok t) ∧
      peer.answer? o.timeout.toNat 0 (.lookup 0 o.pid) =
        some (.lookup (.found 0 b)) ∧ b ≠ "" := by
  have valid : o.fault? = none ↔ o.timeout ≠ 0 := timeoutFault?_eq_none_iff
  have success :=
    OneShot.await_start_eq_some_iff (x := .lookup) (o := .lookup (.ok b))
    (by simp [Completion.failed]) o.timeout.toNat 0 (peer.acts (.lookup 0 o.pid))
  have named : (∃ r, peer.answer? o.timeout.toNat 0 (.lookup 0 o.pid) = some r ∧
      r.verdict .lookup = .lookup (.ok b)) ↔
      peer.answer? o.timeout.toNat 0 (.lookup 0 o.pid) =
        some (.lookup (.found 0 b)) ∧ b ≠ "" := by
    constructor
    · rintro ⟨r, first, told⟩
      obtain ⟨same, some⟩ := Reply.verdict_lookup_eq_ok_iff.mp told
      rw [OneShot.id_of_answer? first] at same
      exact ⟨same ▸ first, some⟩
    · rintro ⟨first, some⟩
      exact ⟨_, first, Reply.verdict_lookup_eq_ok_iff.mpr ⟨rfl, some⟩⟩
  rw [← valid, ← named]
  simp only [Peer.answer?, ← success]
  unfold LookupOptions.run
  cases o.fault? with
  | some fault => simp
  | none =>
      cases peer.connect with
      | error fault => simp
      | ok t =>
          dsimp only
          generalize (OneShot.start .lookup).await o.timeout.toNat 0
            (peer.acts (.lookup 0 o.pid)) = comes
          obtain _ | (_ | _) | _ := comes <;> simp [Completion.lookup?]

/-- A health check comes to its line exactly if its answer, in time, is a report
that the agent serves. -/
theorem HealthOptions.run_eq_ok_iff {o : HealthOptions} {path : Path} {peer : Peer}
    {line : String} :
    o.run path peer = .ok line ↔ line = "ok" ∧ o.timeout ≠ 0 ∧
      ∃ t, peer.connect = .ok t ∧
      ∃ report, peer.answer? o.timeout.toNat t (.health 0) = some (.health report) ∧
        report.status ∈ ["ok", "oK", "Ok", "OK"] := by
  have valid : o.fault? = none ↔ o.timeout ≠ 0 := timeoutFault?_eq_none_iff
  rw [← valid]
  unfold HealthOptions.run
  cases o.fault? with
  | some fault => simp
  | none =>
      cases peer.connect with
      | error fault => simp
      | ok t =>
          have success (report : HealthReport) :=
            OneShot.await_start_eq_some_iff (x := .health)
            (o := .health (.ok report))
            (by simp [Completion.failed]) o.timeout.toNat t
            (peer.acts (.health 0))
          simp only [Reply.verdict_health_eq_ok_iff, exists_eq_right] at success
          simp only [true_and, Except.ok.injEq, exists_eq_left',
            Peer.answer?, ← success, ← HealthReport.isServing_iff]
          generalize (OneShot.start .health).await o.timeout.toNat t
            (peer.acts (.health 0)) = comes
          obtain _ | _ | (_ | report) := comes
          · simp
          · simp [Completion.health?]
          · simp [Completion.health?]
          · by_cases serves : report.isServing = true
            · simp only [Completion.health?, Option.bind_some, serves, if_true,
                Except.ok.injEq, Option.some.injEq, Completion.health.injEq,
                exists_eq_left', and_true]
              exact eq_comm
            · simp [Completion.health?, serves]

/-! ## How the program ends -/

namespace Ending

/-- The program prints one line and ends with success, or prints
nothing and fails. -/
def IsHonest (e : Ending) : Prop :=
  (e.status = 0 ↔ ∃ line, e.output = line ++ "\n") ∧ (e.status ≠ 0 → e.output = "")

theorem isHonest_ofResult (result : Except RunFault String) :
    (ofResult result).IsHonest := by
  cases result with
  | ok line =>
      exact ⟨⟨fun _ => ⟨line, rfl⟩, fun _ => rfl⟩, fun never => absurd rfl never⟩
  | error fault =>
      have fails : (ofResult (.error fault)).status ≠ 0 :=
        show (1 : UInt8) ≠ 0 by decide
      refine ⟨⟨fun never => absurd never fails, ?_⟩, fun _ => rfl⟩
      rintro ⟨line, empty⟩
      simp [ofResult, output] at empty

theorem output_ofResult_eq_iff {result : Except RunFault String} {line : String} :
    (ofResult result).output = line ++ "\n" ↔ result = .ok line := by
  cases result with
  | ok l => simp [ofResult, output]
  | error fault => simp [ofResult, output]

end Ending

/-- What answers where a command meets the other side. -/
def Command.farEnd (s : Surroundings) (siteAt : Path → Site) (peer : Peer)
    (c : Command) : Peer :=
  (siteAt (c.path s)).reach peer

/-- A single call ends with success exactly if it prints its line, and prints
nothing else. A lookup prints a bundle id exactly if its options are in order, the
far end can be dialled, and the first reply with the call's id names that bundle
id: it comes in time, and before the far end closes or writes what cannot be read.
A health check prints `ok` exactly if, the time to be connected included, the
first such reply is a report whose status is `ok` in any case. -/
theorem single_calls_print (s : Surroundings) (siteAt : Path → Site) (peer : Peer)
    (words : List Word) :
    (∀ o, Command.ofWords words = .ok (.lookup o) →
      (runProgram s siteAt peer words).1.IsHonest ∧
      ∀ b, (runProgram s siteAt peer words).1.output = b ++ "\n" ↔
        o.timeout ≠ 0 ∧
        (∃ t, ((Command.lookup o).farEnd s siteAt peer).connect = .ok t) ∧
        ((Command.lookup o).farEnd s siteAt peer).answer? o.timeout.toNat 0
          (.lookup 0 o.pid) =
          some (.lookup (.found 0 b)) ∧ b ≠ "") ∧
    ∀ o, Command.ofWords words = .ok (.health o) →
      (runProgram s siteAt peer words).1.IsHonest ∧
      ∀ line, (runProgram s siteAt peer words).1.output = line ++ "\n" ↔
        line = "ok" ∧ o.timeout ≠ 0 ∧
        ∃ t, ((Command.health o).farEnd s siteAt peer).connect = .ok t ∧
        ∃ report, ((Command.health o).farEnd s siteAt peer).answer? o.timeout.toNat
          t (.health 0) =
          some (.health report) ∧ report.status ∈ ["ok", "oK", "Ok", "OK"] := by
  constructor
  · intro o read
    simp only [runProgram, read, Command.run, Ending.output_ofResult_eq_iff]
    exact ⟨Ending.isHonest_ofResult _, fun b => LookupOptions.run_eq_ok_iff⟩
  · intro o read
    simp only [runProgram, read, Command.run, Ending.output_ofResult_eq_iff]
    exact ⟨Ending.isHonest_ofResult _, fun line => HealthOptions.run_eq_ok_iff⟩

/-- A far end that takes its time: a reply to somebody else's call, a
beginning of the right one, the rest of it with bytes behind it that cannot be
read, and the end. -/
def faltering : Peer where
  connect := .ok 5
  acts request :=
    let stranger := Wire.frame (Wire.encodeReply (.lookup (.found 1 "app.other")))
    let right := Wire.frame (Wire.encodeReply (match request with
      | .lookup id _ => .lookup (.found id "app.right")
      | .health id => .health ⟨id, "oK", "0.1.0"⟩))
    [(10, .write stranger), (20, .write (right.take 9)),
      (29, .write (right.drop 9 ++ [0, 0, 0, 1, 0xc1])), (0, .close)]

/-- A site where somebody listens. -/
def tended (path : Path) : Site :=
  { Site.fresh path (.socket (some 0)) with bound := 1, running := [0] }

/-- The words that ask for the app of a process, and that wait for 60 milliseconds
once connected. -/
def hurriedLookup : List Word :=
  ["bundle-id", "--pid=-7", "--timeout-ms", "60"].map Text.Utf8.encode

/-- The words that ask whether the agent serves, and that wait for 65
milliseconds in all. -/
def hurriedHealth : List Word := ["health", "--timeout-ms=65"].map Text.Utf8.encode

/-- The last piece of the right reply comes 59 milliseconds after the program is
connected, and 64 after it began: both commands have it in time. -/
theorem faltering_prints :
    (runProgram ⟨none, "1000"⟩ tended faltering hurriedLookup).1.output =
      "app.right" ++ "\n" ∧
    (runProgram ⟨none, "1000"⟩ tended faltering hurriedHealth).1.output =
      "ok" ++ "\n" := by
  have told := single_calls_print ⟨none, "1000"⟩ tended faltering
  constructor
  · refine ((told hurriedLookup).1 { pid := -7, timeout := 60 } rfl).2
      "app.right" |>.mpr
      ⟨by decide, ⟨5, rfl⟩, ?_, by decide⟩
    decide +kernel
  · refine ((told hurriedHealth).2 { timeout := 65 } rfl).2 "ok" |>.mpr
      ⟨rfl, by decide, 5, rfl, ⟨0, "oK", "0.1.0"⟩, ?_, by decide⟩
    decide +kernel

end ElementAgent

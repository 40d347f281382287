import ElementAgent.CommandLine.Options
import ElementAgent.Proofs.Agent.Oversize
import ElementAgent.Proofs.Bundle.Names

/-!
# Options to serve with

The options that an agent accepts do not say whether it can work with them: it
also needs permits that can be counted, and replies that fit into frames. Main
statement (`serves_iff_within_limits`): with accepted options an agent can be set
up and answers every lookup of a process that has a name iff there are not too
many permits and the beginning of its bundle ids leaves room for a name. Some
accepted options do neither (`accepted_without_serving`).
-/

namespace ElementAgent

open MessagePack Wire
open AgentEnd (Fits)

/-! ## The sizes of replies -/

theorem length_textHeader (n : Nat) :
    (textHeader n).length =
      if n < 0x20 then 1 else if n < 0x100 then 2 else if n < 0x10000 then 3
      else 5 := by
  unfold textHeader
  split_ifs <;> simp

theorem length_writeText_le (t : String) :
    (writeText t).length ≤ (Text.Utf8.encode t).length + 5 := by
  rw [writeText, List.length_append, length_textHeader]
  split_ifs <;> omega

theorem length_encodeReply_found (id : UInt64) (b : String) :
    (encodeReply (.lookup (.found id b))).length =
      32 + (writeUnsigned id.toNat).length + (writeText b).length := by
  have keys : (writeText "bundle_id").length = 10 ∧ (writeText "id").length = 3 ∧
      (writeText "error").length = 6 := by decide
  obtain ⟨outer, number, error⟩ := keys
  simp only [encodeReply, LookupReply.found, writeMap, writeNullable, writeNil,
    List.flatMap_cons, List.flatMap_nil, List.length_append, List.length_cons,
    List.length_nil, mapHeader]
  simp only [Nat.reduceAdd, Nat.reduceLT, if_true, List.length_cons,
    List.length_nil, outer, number, error]
  omega

theorem length_encodeReply_failed (id : UInt64) (f : Failure) :
    (encodeReply (.lookup (.failed id f))).length =
      46 + (writeUnsigned id.toNat).length + (writeText f.code).length +
        (writeText f.message).length := by
  have keys : (writeText "bundle_id").length = 10 ∧ (writeText "id").length = 3 ∧
      (writeText "error").length = 6 ∧ (writeText "code").length = 5 ∧
      (writeText "message").length = 8 := by decide
  obtain ⟨outer, number, error, code, message⟩ := keys
  simp only [encodeReply, LookupReply.failed, encodeFailure, writeMap,
    writeNullable, writeNil, List.flatMap_cons, List.flatMap_nil,
    List.length_append, List.length_cons, List.length_nil, mapHeader]
  simp only [Nat.reduceAdd, Nat.reduceLT, if_true, List.length_cons,
    List.length_nil, outer, number, error, code, message]
  omega

/-- The longest bundle id, in bytes, that can be answered whatever the
number of the lookup. -/
def maxBundle : Nat := 65492

theorem fits_found {id : UInt64} {b : String}
    (short : (Text.Utf8.encode b).length ≤ maxBundle) :
    Fits (.lookup (.found id b)) := by
  have number := length_writeUnsigned id.toNat
  unfold maxBundle at short
  rw [Fits, length_encodeReply_found, writeText, List.length_append,
    length_textHeader, maxBody]
  split_ifs <;> omega

/-- Under the longest number a longer bundle id does not fit. -/
theorem length_le_of_fits_found {b : String}
    (fits : Fits (.lookup (.found (UInt64.ofNat (2 ^ 64 - 1)) b))) :
    (Text.Utf8.encode b).length ≤ maxBundle := by
  have number : (writeUnsigned (UInt64.ofNat (2 ^ 64 - 1)).toNat).length = 9 := by
    decide
  rw [Fits, length_encodeReply_found, number, writeText, List.length_append,
    length_textHeader, maxBody] at fits
  unfold maxBundle
  split_ifs at fits <;> omega

theorem fits_failed {id : UInt64} {f : Failure}
    (short : (Text.Utf8.encode f.code).length +
      (Text.Utf8.encode f.message).length ≤ 1000) :
    Fits (.lookup (.failed id f)) := by
  have number := length_writeUnsigned id.toNat
  have code := length_writeText_le f.code
  have message := length_writeText_le f.message
  rw [Fits, length_encodeReply_failed, maxBody]
  omega

/-! ## The texts of failures -/

theorem length_toString_pid (p : Pid) : (toString p).length ≤ 11 := by
  have low := p.le_toInt
  have high := p.toInt_lt
  show (toString p.toInt).length ≤ 11
  cases value : p.toInt with
  | ofNat n =>
      rw [value, Int.ofNat_eq_natCast] at high
      have small : n < 10 ^ 11 := by omega
      exact (Nat.length_repr_le_iff (by decide)).mpr small
  | negSucc n =>
      rw [value] at low
      have small : n + 1 < 10 ^ 10 := by omega
      have digits : (n + 1).repr.length ≤ 10 :=
        (Nat.length_repr_le_iff (by decide)).mpr small
      show ("-" ++ (n + 1).repr).length ≤ 11
      rw [String.length_append]
      exact Nat.add_le_add_left digits 1

theorem toString_text (t : String) : toString t = t := rfl

/-- The failures of processes with a name are short. -/
theorem fits_notInstrumentable {id : UInt64} {p : Pid} {why : String}
    (short : why.length ≤ 100) :
    Fits (.lookup (.failed id (.notInstrumentable p why))) := by
  have code : (Text.Utf8.encode "not_instrumentable").length = 18 := by decide
  have start : "process ".length = 8 := by decide
  have middle : " is not instrumentable: ".length = 24 := by decide
  have number := length_toString_pid p
  have message :=
    Text.Utf8.length_encode_le_mul (Failure.notInstrumentable p why).message
  simp only [Failure.notInstrumentable, toString_text, String.length_append, start,
    middle] at message
  apply fits_failed
  simp only [Failure.notInstrumentable, toString_text, code]
  omega

theorem fits_unreadable {v : ProcessView} {id : UInt64} {p : Pid}
    (root : v.root = "/proc") :
    Fits (.lookup
      (.failed id (v.unreadable p "stream did not contain valid UTF-8"))) := by
  have start : "read ".length = 5 := by decide
  have directory : "/proc".length = 5 ∧ "/".length = 1 ∧ "/comm".length = 5 := by
    decide
  have rest : ": ".length = 2 ∧
      "stream did not contain valid UTF-8".length = 34 := by decide
  have number := length_toString_pid p
  apply fits_notInstrumentable
  simp only [ProcessView.commandPath, root, toString_text, String.length_append,
    start, directory, rest]
  omega

/-! ## Serving -/

/-- The longest name of a command, in bytes. -/
def maxName : Nat := 15

namespace ServeOptions

/-- The agent can be set up on every host, and answers every lookup of a process
with a name by a reply that fits into a frame. -/
def Serves (o : ServeOptions) : Prop :=
  ∀ v : ProcessView, v.root = "/proc" → ∃ s, o.setup? v = some s ∧
    ∀ p name id n, v.IsNamed p name → name.length ≤ maxName →
      Fits (.lookup (s.answer id p (s.plan n p)))

/-- The permits can be counted, and a dot and a name find room behind the
beginning of bundle ids. -/
def IsWithinLimits (o : ServeOptions) : Prop :=
  o.maxInFlight.toNat ≤ Agent.maxPermits ∧
  o.bundlePrefix.length + 1 + maxName ≤ maxBundle

variable {o : ServeOptions} {v : ProcessView} {s : Agent.Setup} {p : Pid}
  {name : List UInt8}

theorem setup?_eq_some (h : o.setup? v = some s) :
    o.maxInFlight.toNat ≤ Agent.maxPermits ∧
      s = .of o.maxInFlight.toNat o.replyTimeout.toNat fun _ p =>
        v.plan o.bundlePrefix p := by
  unfold setup? at h
  split at h
  case isTrue few => exact ⟨few, (Option.some.inj h).symm⟩
  case isFalse => cases h

/-- What is derived is in time, so it is the answer. -/
theorem answer_of_setup? (h : o.setup? v = some s) (id : UInt64) (n : Nat) :
    s.answer id p (s.plan n p) =
      Agent.replyOf id (v.derivedBundle o.bundlePrefix p) := by
  obtain ⟨-, rfl⟩ := setup?_eq_some h
  simp [Agent.Setup.of, Agent.Setup.answer, Plan.answer, ProcessView.plan]

/-- What is derived takes no time. -/
theorem isDecided_of_setup? (h : o.setup? v = some s) : s.IsDecided where
  in_time n pid d at_once := by
    obtain ⟨-, rfl⟩ := setup?_eq_some h
    exact Option.some.inj at_once ▸ Nat.zero_le _

theorem replyOf_ok (id : UInt64) (beginning : String) (label : List Char) :
    Agent.replyOf id (.ok (beginning ++ "." ++ String.ofList label)) =
      .found id (beginning ++ "." ++ String.ofList label) := by
  have named : (beginning ++ "." ++ String.ofList label).isEmpty = false := by
    rw [← Bool.not_eq_true, String.isEmpty_iff]
    intro empty
    have length := congrArg String.length empty
    simp only [String.length_append] at length
    have dot : ".".length = 1 := by decide
    have none : "".length = 0 := by decide
    omega
  simp [Agent.replyOf, named]

theorem isBundlePrefix_of_accepted (accepted : o.fault? = none) :
    isBundlePrefix o.bundlePrefix = true := by
  unfold fault? at accepted
  by_contra refused
  rw [if_pos (by simpa using refused)] at accepted
  cases accepted

/-- An accepted beginning takes a byte for each of its characters, and so does
what is put behind it. -/
theorem length_bundle (accepted : o.fault? = none) {label : List Char}
    (allowed : ∀ c ∈ label, isBundleChar c = true) :
    (Text.Utf8.encode (o.bundlePrefix ++ "." ++ String.ofList label)).length =
      o.bundlePrefix.length + 1 + label.length := by
  have beginning : ∀ c ∈ o.bundlePrefix.toList, isBundleChar c = true := by
    have good := isBundlePrefix_of_accepted accepted
    simp only [isBundlePrefix, Bool.and_eq_true, List.all_eq_true] at good
    exact good.2
  have dot : (Text.Utf8.encode ".").length = 1 := by decide
  rw [Text.Utf8.encode_append, Text.Utf8.encode_append, List.length_append,
    List.length_append, dot,
    Text.Utf8.length_encode_of_ascii fun c hc =>
      lt_of_isBundleChar (beginning c hc),
    Text.Utf8.length_encode_of_ascii fun c hc =>
      lt_of_isBundleChar (allowed c (by rwa [String.toList_ofList] at hc)),
      String.length_ofList]

theorem IsWithinLimits.serves (accepted : o.fault? = none)
    (within : o.IsWithinLimits) : o.Serves := by
  obtain ⟨few, short⟩ := within
  intro v root
  refine ⟨_, if_pos few, ?_⟩
  intro p name id n named small
  rw [answer_of_setup? (if_pos few)]
  rcases v.derived_of_isNamed o.bundlePrefix named with
    ⟨label, shorter, allowed, found⟩ | ⟨f, listed, failed⟩
  · rw [found, replyOf_ok]
    apply fits_found
    rw [length_bundle accepted allowed]
    omega
  · rw [failed]
    rcases List.mem_pair.mp listed with rfl | rfl
    · exact fits_unreadable root
    · exact fits_notInstrumentable (by decide)

theorem isBundleChar_of_mem_letters (n : Nat) :
    ∀ c ∈ List.replicate n 'a', isBundleChar c = true :=
  fun _ listed => List.eq_of_mem_replicate listed ▸ rfl

/-- A host on which all processes go by the same longest name. -/
def crowd : ProcessView :=
  ⟨"/proc", fun _ => true, fun _ => .ok (List.replicate maxName 0x61 ++ [0x0A])⟩

theorem derivedBundle_crowd (beginning : String) :
    crowd.derivedBundle beginning 1 =
      .ok (beginning ++ "." ++ String.ofList (List.replicate maxName 'a')) := by
  have text : crowd.commandText 1 = .ok "aaaaaaaaaaaaaaa\n" := by decide
  have name : bundleName "aaaaaaaaaaaaaaa\n".toList =
      List.replicate maxName 'a' := by decide
  have there : (0 : Pid) < 1 ∧ crowd.isAlive 1 = true := by decide
  unfold ProcessView.derivedBundle
  rw [if_pos there, text]
  simp only [name]
  rfl

theorem isWithinLimits_of_serves (accepted : o.fault? = none) (serves : o.Serves) :
    o.IsWithinLimits := by
  obtain ⟨s, set, fits⟩ := serves crowd rfl
  refine ⟨(setup?_eq_some set).1, ?_⟩
  -- the longest name, asked for under the longest number
  have fits := fits 1 (List.replicate maxName 0x61) (UInt64.ofNat (2 ^ 64 - 1)) 0
    ⟨by decide, rfl, rfl⟩ (by simp)
  rw [answer_of_setup? set, derivedBundle_crowd, replyOf_ok] at fits
  have long := length_le_of_fits_found fits
  rwa [length_bundle accepted (isBundleChar_of_mem_letters _),
    List.length_replicate] at long

/-- Every reply that is owed is the reply to one of the requests. -/
theorem exists_of_mem_replies {k : Nat} {rs : List Request} {r : Reply}
    (owed : r ∈ s.replies k rs) :
    ∃ q ∈ rs, ∃ n, r = s.reply n q := by
  induction rs generalizing k with
  | nil => cases owed
  | cons q rs ih =>
      rcases List.mem_cons.mp owed with rfl | owed
      · exact ⟨q, List.mem_cons_self, k, rfl⟩
      · obtain ⟨q', listed, n, same⟩ := ih owed
        exact ⟨q', List.mem_cons_of_mem _ listed, n, same⟩

theorem fits_serving (id : UInt64) : Fits (.health (.serving id)) := by
  have number := length_writeUnsigned id.toNat
  have texts : (writeText "health").length + (writeText "id").length +
      (writeText "status").length +
      (writeText "ok").length + (writeText "version").length +
      (writeText HealthReport.agentVersion).length = 34 := by decide +kernel
  simp only [Fits, encodeReply, HealthReport.serving, writeMap, List.flatMap_cons,
    List.flatMap_nil, List.length_append, List.length_cons, List.length_nil,
    mapHeader, maxBody]
  simp only [Nat.reduceAdd, Nat.reduceLT, if_true, List.length_cons,
    List.length_nil]
  omega

/-- Options that are accepted serve iff they keep within limits that accepting
them does not check. If they serve, then an agent that has finished has answered
every request, as long as lookups are about processes with names. -/
theorem serves_iff_within_limits (accepted : o.fault? = none) :
    (o.Serves ↔ o.IsWithinLimits) ∧
    (o.Serves → ∀ v s, v.root = "/proc" → o.setup? v = some s →
      ∀ inbound outbound (es : List Talk.Event) (t : Talk),
        es.foldlM (Talk.step? s) (Talk.fresh s inbound outbound) = some t →
        (∀ id p, .lookup id p ∈ t.requests →
          ∃ name, v.IsNamed p name ∧ name.length ≤ maxName) →
        t.wired.side.isServed = true →
        t.replies.Perm (s.replies 0 t.requests)) := by
  refine ⟨⟨isWithinLimits_of_serves accepted,
    fun within => within.serves accepted⟩, ?_⟩
  intro serves v s root set inbound outbound es t run named served
  obtain ⟨s', set', fits⟩ := serves v root
  cases Option.some.inj (set.symm.trans set')
  have := isDecided_of_setup? set
  have answered := Talk.one_reply_per_request run
  rw [Talk.hindsight_of_decided] at answered
  refine (answered ?_ served).2.1
  intro r owed
  obtain ⟨q, asked, n, rfl⟩ := exists_of_mem_replies owed
  cases q with
  | health id => exact fits_serving id
  | lookup id p =>
      obtain ⟨name, there, short⟩ := named id p asked
      exact fits p name id n there short

/-- A host on which process 7 runs a command named `a`. -/
def lone : ProcessView where
  root := "/proc"
  isAlive p := p = 7
  command _ := .ok [0x61, 0x0A]

/-- The agent on that host under the options that hold if nothing is said. -/
def plain : Agent.Setup := .of 64 5000 fun _ p => lone.plan "local.process" p

/-- A far end that asks about the process and after the agent's
health, and closes. -/
def brief : List Talk.Event :=
  [.write (frames encodeRequest [.lookup 1 7, .health 2]), .close, .move (.pull 42),
    .move .read, .move .grant, .move (.begin 0), .move .read, .move .report,
    .move (.finish 0), .move (.hand 0), .move .take, .move (.push 41), .move .flush,
    .move .take, .move (.push 53), .move .flush, .move .read, .move .writerDone,
    .move .release]

/-- The options that hold if nothing is said serve, and under them both requests
are answered. -/
theorem serves_iff_within_limits_default :
    ({} : ServeOptions).fault? = none ∧ ({} : ServeOptions).Serves ∧
      ({} : ServeOptions).setup? lone = some plain ∧
      ∃ t, brief.foldlM (Talk.step? plain) (Talk.fresh plain 200 200) = some t ∧
        t.wired.side.isServed = true ∧ t.requests = [.lookup 1 7, .health 2] ∧
        t.replies.Perm [.lookup (.found 1 "local.process.a"),
          .health (.serving 2)] := by
  have accepted : ({} : ServeOptions).fault? = none := by decide
  obtain ⟨limits, answers⟩ := serves_iff_within_limits accepted
  have serves := limits.mpr (by unfold IsWithinLimits; decide)
  have set : ({} : ServeOptions).setup? lone = some plain := rfl
  have ends :
      (brief.foldlM (Talk.step? plain) (Talk.fresh plain 200 200)).any (fun t =>
      t.wired.side.isServed && t.requests = [.lookup 1 7, .health 2]) = true := by
    decide +kernel
  obtain ⟨t, run, ends⟩ := (Option.any_eq_true _ _).mp ends
  obtain ⟨served, asked⟩ : _ ∧ t.requests = [.lookup 1 7, .health 2] := by
    simpa using ends
  have named : ∀ id p, .lookup id p ∈ t.requests →
      ∃ name, lone.IsNamed p name ∧ name.length ≤ maxName := by
    intro id p listed
    obtain ⟨-, rfl⟩ : id = 1 ∧ p = 7 := by simpa [asked] using listed
    exact ⟨[0x61], ⟨by decide, by decide, rfl⟩, by decide⟩
  have answered :=
    answers serves lone plain rfl set 200 200 brief t run named served
  rw [asked] at answered
  exact ⟨accepted, serves, set, t, run, served, asked,
    answered.trans (by decide +kernel)⟩

/-- A beginning of any number of letters is accepted. -/
theorem isBundlePrefix_giant {n : Nat} (some_letter : 0 < n) :
    isBundlePrefix (Talk.giant n) = true := by
  have letters : ∀ c ∈ List.replicate n 'a', c = 'a' :=
    fun c => List.eq_of_mem_replicate
  have first : (List.replicate n 'a').head? ≠ some '.' :=
    fun h => absurd (letters _ (List.mem_of_head? h)) (by decide)
  have last : (List.replicate n 'a').getLast? ≠ some '.' :=
    fun h => absurd (letters _ (List.mem_of_getLast? h)) (by decide)
  have there : n ≠ 0 := Nat.ne_of_gt some_letter
  simp only [isBundlePrefix, Talk.giant, String.toList_ofList, Bool.and_eq_true,
    List.all_eq_true, bne_iff_ne]
  exact ⟨⟨⟨by simp [there], first⟩, last⟩, isBundleChar_of_mem_letters n⟩

theorem fault?_giant {n : Nat} (some_letter : 0 < n) :
    ({ bundlePrefix := Talk.giant n } : ServeOptions).fault? = none := by
  unfold fault?
  rw [isBundlePrefix_giant some_letter]
  rfl

theorem not_serves_giant {n : Nat} (long : maxBundle ≤ n) :
    ¬({ bundlePrefix := Talk.giant n } : ServeOptions).Serves := by
  intro serves
  have accepted := fault?_giant (n := n) (Nat.lt_of_lt_of_le (by decide) long)
  have short := (isWithinLimits_of_serves accepted serves).2
  have length : (Talk.giant n).length = n := by
    rw [Talk.giant, String.length_ofList, List.length_replicate]
  simp only [length] at short
  omega

/-- Options are accepted under which replies do not fit, and options under which
there is no agent. -/
theorem accepted_without_serving :
    (({ bundlePrefix := Talk.giant 70000 } : ServeOptions).fault? = none ∧
      ¬({ bundlePrefix := Talk.giant 70000 } : ServeOptions).Serves) ∧
    ({ maxInFlight := 2305843009213693952 } : ServeOptions).fault? = none ∧
      ¬({ maxInFlight := 2305843009213693952 } : ServeOptions).Serves := by
  have many : ({ maxInFlight := 2305843009213693952 } : ServeOptions).fault? =
      none := by decide
  refine ⟨⟨fault?_giant (by decide), not_serves_giant (by decide)⟩, many, ?_⟩
  intro serves
  have few := (isWithinLimits_of_serves many serves).1
  revert few
  decide

end ServeOptions

end ElementAgent

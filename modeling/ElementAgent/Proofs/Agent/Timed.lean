import ElementAgent.Proofs.Agent.FirstCome

/-!
# Lookups that are on time

An agent whose lookups begin as soon as they have their permits, end as soon as
they are due and are let go at once (`Timed`). Main statements:

* **steps**: what gives out a permit, moves a lookup on in time or lets it go
  keeps all lookups on time (`Timed.grant`, `Timed.setStage`, `Timed.release`),
  and so does time that passes while all lookups run and none of them is due
  (`Timed.elapse`);
* **outcomes**: when lookups come to their end and with what reply is told by
  those that hold a permit and those that were let go (`Timed.perm_served`), and
  only the former are unfinished (`Timed.unfinished`).
-/

namespace ElementAgent.Agent

/-! ## The rules -/

/-- A lookup that was given its permit at the time `b` and runs for `d` is on
time: it begins at once, it has not come to its end late, and it does not wait for
a place in the queue. -/
def Stage.KeepsTime (b d now : Nat) : Stage → Prop
  | .waiting => b = now
  | .running since => b = since ∧ now ≤ since + d
  | .answered _ => b + d = now

/-- The agent has given out its permits at the times `begins`, and has let go of
the lookups with the numbers `left`; all of them are on time. -/
structure Timed (s : Setup) (jobs : List Job) (a : Agent)
    (begins left : List Nat) : Prop where
  count : begins.length = a.admitted
  enough : begins.length ≤ jobs.length
  past : ∀ b ∈ begins, b ≤ a.now
  numbers : (a.lookups.map Lookup.number ++ left).Perm (List.range a.admitted)
  held : ∀ l ∈ a.lookups, ∃ b, begins[l.number]? = some b ∧
    jobs[l.number]? = some (l.job s) ∧
    l.stage.KeepsTime b (l.job s).duration a.now
  ended : ∀ n ∈ left, ∃ x, (served begins jobs)[n]? = some x ∧ x.1 ≤ a.now

/-- When a lookup comes to its end, and with what reply. -/
def Lookup.outcome (s : Setup) (begins : List Nat) (l : Lookup) : Nat × Reply :=
  (begins.getD l.number 0 + (l.job s).duration, (l.job s).reply)

namespace Timed

/-! ## Steps -/

variable {s : Setup} {jobs : List Job} {a a' : Agent} {begins left : List Nat}
  {l : Lookup} {time : Nat}

theorem start (s : Setup) (jobs : List Job) : Timed s jobs (fresh s) [] [] where
  count := rfl
  enough := Nat.zero_le _
  past := by simp
  numbers := .refl _
  held := by simp [fresh]
  ended := by simp

/-- Only the clock and the lookups matter. -/
theorem keep (h : Timed s jobs a begins left) (lookups : a'.lookups = a.lookups)
    (admitted : a'.admitted = a.admitted) (now : a'.now = a.now) :
    Timed s jobs a' begins left where
  count := admitted ▸ h.count
  enough := h.enough
  past := now ▸ h.past
  numbers := by rw [lookups, admitted]; exact h.numbers
  held := by rw [lookups, now]; exact h.held
  ended := now ▸ h.ended

theorem length_served (h : Timed s jobs a begins left) :
    (served begins jobs).length = a.admitted := by
  rw [Agent.length_served h.enough, h.count]

/-- A lookup is given its permit. -/
theorem grant (h : Timed s jobs a begins left) {id : UInt64} {pid : Pid}
    {free : Nat} (next : jobs[a.admitted]? = some (s.job a.admitted id pid)) :
    Timed s jobs { a with
      reading := .ready, free, admitted := a.admitted + 1
      lookups := a.lookups ++ [⟨a.admitted, id, pid, .waiting⟩] }
        (begins ++ [a.now]) left where
  count := by rw [List.length_append, h.count]; rfl
  enough := by
    rw [List.length_append, h.count]
    exact (List.getElem?_eq_some_iff.mp next).1
  past := by
    intro b given
    rcases List.mem_append.mp given with before | now
    · exact h.past b before
    · rw [List.mem_singleton.mp now]
  numbers := by
    simp only [List.map_append, List.map_cons, List.map_nil]
    rw [List.range_succ, List.append_assoc]
    refine (List.Perm.append_left _ List.perm_append_comm).trans ?_
    rw [← List.append_assoc]
    exact h.numbers.append_right _
  held := by
    intro l held
    rcases List.mem_append.mp held with before | new
    · obtain ⟨b, given, job, timely⟩ := h.held l before
      have early : l.number < begins.length :=
        (List.getElem?_eq_some_iff.mp given).1
      exact ⟨b, by rw [List.getElem?_append_left early, given], job, timely⟩
    · rw [List.mem_singleton.mp new]
      exact ⟨a.now, by rw [← h.count, List.getElem?_concat_length], next, rfl⟩
  ended := by
    intro n gone
    obtain ⟨x, told, past⟩ := h.ended n gone
    have early : n < (served begins jobs).length :=
      (List.getElem?_eq_some_iff.mp told).1
    exact ⟨x, by rw [served_concat (h.count ▸ next),
      List.getElem?_append_left early, told], past⟩

/-- A lookup moves on in time. -/
theorem setStage (h : Timed s jobs a begins left) (o : Orderly s a)
    (held : l ∈ a.lookups) (stage : Stage)
    (timely : ∀ b, l.stage.KeepsTime b (l.job s).duration a.now →
      stage.KeepsTime b (l.job s).duration a.now) :
    Timed s jobs (a.setStage l.number stage) begins left where
  count := h.count
  enough := h.enough
  past := h.past
  numbers := by rw [setStage_numbers]; exact h.numbers
  held := by
    intro m moved
    rcases mem_setStage moved with same | ⟨before, there, named, rfl⟩
    · exact h.held m same
    · -- numbers are unique: the lookup that is moved is the one that was found
      obtain rfl : before = l := List.inj_on_of_nodup_map o.numbers there held named
      obtain ⟨b, given, job, keeps⟩ := h.held before held
      exact ⟨b, given, job, timely b keeps⟩
  ended := h.ended

/-- A lookup that has its answer is let go. -/
theorem release (h : Timed s jobs a begins left) (o : Orderly s a)
    (held : l ∈ a.lookups) {r : LookupReply} (done : l.stage = .answered r) :
    Timed s jobs (a.release l.number) begins (left ++ [l.number]) where
  count := h.count
  enough := h.enough
  past := h.past
  numbers := by
    have split := (perm_release o.numbers held).map Lookup.number
    refine List.Perm.trans ?_ h.numbers
    rw [← List.append_assoc]
    exact List.perm_append_comm.trans (split.symm.append_right left)
  held := fun m kept => h.held m (List.mem_of_mem_filter kept)
  ended := by
    intro n gone
    rcases List.mem_append.mp gone with before | new
    · exact h.ended n before
    · obtain ⟨b, given, job, timely⟩ := h.held l held
      rw [done] at timely
      rw [List.mem_singleton.mp new]
      exact ⟨_, getElem?_served given job, Nat.le_of_eq timely⟩

/-- Time passes while all lookups run and none of them is due. -/
theorem elapse (h : Timed s jobs a begins left) {ms : Nat}
    (running : ∀ l ∈ a.lookups, ∃ since, l.stage = .running since ∧
      a.now + ms ≤ s.due l since) :
    Timed s jobs { a with now := a.now + ms } begins left where
  count := h.count
  enough := h.enough
  past := fun b given => Nat.le_add_right_of_le (h.past b given)
  numbers := h.numbers
  held := by
    intro l held
    obtain ⟨b, given, job, timely⟩ := h.held l held
    obtain ⟨since, runs, due⟩ := running l held
    rw [runs] at timely
    refine ⟨b, given, job, ?_⟩
    rw [runs]
    exact ⟨timely.1, due⟩
  ended := by
    intro n gone
    obtain ⟨x, told, past⟩ := h.ended n gone
    exact ⟨x, told, Nat.le_add_right_of_le past⟩

/-! ## Outcomes -/

theorem getElem?_outcome (h : Timed s jobs a begins left) (held : l ∈ a.lookups) :
    (served begins jobs)[l.number]? = some (l.outcome s begins) := by
  obtain ⟨b, given, job, -⟩ := h.held l held
  rw [getElem?_served given job, Lookup.outcome, List.getD_eq_getElem?_getD, given]
  rfl

/-- A lookup that runs comes to its end when it is due. -/
theorem outcome_of_running (h : Timed s jobs a begins left) (held : l ∈ a.lookups)
    {since : Nat}
    (runs : l.stage = .running since) : (l.outcome s begins).1 = s.due l since := by
  obtain ⟨b, given, -, timely⟩ := h.held l held
  rw [runs] at timely
  rw [Lookup.outcome, List.getD_eq_getElem?_getD, given, timely.1]
  rfl

/-- A lookup that has its answer has come to its end now. -/
theorem outcome_of_answered (h : Timed s jobs a begins left) (held : l ∈ a.lookups)
    {r : LookupReply} (done : l.stage = .answered r)
    (answer : Reply.lookup r = l.reply s) :
    l.outcome s begins = (a.now, .lookup r) := by
  obtain ⟨b, given, -, timely⟩ := h.held l held
  rw [done] at timely
  rw [Lookup.outcome, List.getD_eq_getElem?_getD, given, answer]
  exact Prod.ext timely rfl

/-- Every lookup that was given a permit holds it, or was let go. -/
theorem perm_served (h : Timed s jobs a begins left) :
    (a.lookups.map (Lookup.outcome s begins) ++ pick (served begins jobs) left).Perm
      (served begins jobs) := by
  have all := h.numbers.filterMap ((served begins jobs)[·]?)
  rw [List.filterMap_append, List.filterMap_map] at all
  have outcomes : a.lookups.filterMap (((served begins jobs)[·]?) ∘ Lookup.number) =
      a.lookups.map (Lookup.outcome s begins) := by
    rw [← List.filterMap_eq_map]
    exact List.filterMap_congr fun l held => h.getElem?_outcome held
  rw [outcomes] at all
  refine all.trans (List.Perm.of_eq ?_)
  rw [← h.length_served]
  exact pick_range _

/-- What was let go came to its end. -/
theorem pick_le (h : Timed s jobs a begins left) :
    ∀ x ∈ pick (served begins jobs) left, x.1 ≤ a.now := by
  intro x told
  obtain ⟨n, gone, found⟩ := List.mem_filterMap.mp told
  obtain ⟨y, found', past⟩ := h.ended n gone
  rw [found] at found'
  cases found'
  exact past

/-- Who is given a permit later does not change what was let go. -/
theorem pick_concat (h : Timed s jobs a begins left)
    (more : begins.length < jobs.length) (b : Nat) :
    pick (served (begins ++ [b]) jobs) left = pick (served begins jobs) left := by
  rw [served_concat (List.getElem?_eq_getElem more)]
  refine pick_append (fun n gone => ?_) _
  obtain ⟨x, told, -⟩ := h.ended n gone
  exact (List.getElem?_eq_some_iff.mp told).1

/-- Only lookups that hold a permit are unfinished. -/
theorem unfinished (h : Timed s jobs a begins left) (later : a.now ≤ time) :
    (served begins jobs).countP (fun x => time < x.1) =
      a.lookups.countP fun l => time < (l.outcome s begins).1 := by
  have none : (pick (served begins jobs) left).countP
      (fun x => time < x.1) = 0 := by
    rw [List.countP_eq_zero]
    intro x told
    have past := h.pick_le x told
    simp only [decide_eq_true_eq]
    omega
  rw [← h.perm_served.countP_eq, List.countP_append, none, List.countP_map]
  rfl

end Timed

/-! ## Lookups begin with their permits -/

def Lookup.isWaiting (l : Lookup) : Bool :=
  match l.stage with
  | .waiting => true
  | .running _ | .answered _ => false

/-- The lookups that have their permits and have not begun, by time and number. -/
def waiting (a : Agent) : List (Nat × Nat) :=
  (a.lookups.filter Lookup.isWaiting).map fun l => (a.now, l.number)

/-- The lookups that wait in front of the one with a number. -/
def waitingBefore (a : Agent) (n : Nat) : List Nat :=
  (a.lookups.filter fun l => l.isWaiting && l.number < n).map Lookup.number

/-- Every lookup begins when it is given its permit; if none is overtaken they
begin in their order. -/
structure Begun (a : Agent) (grants : List Nat) (begins : List (Nat × Nat))
    (overtaken : List Nat) :
    Prop where
  all : (begins ++ a.waiting).Perm grants.zipIdx
  inTurn : overtaken = [] → begins <+: grants.zipIdx

namespace Begun

variable {s : Setup} {a a' : Agent} {grants overtaken : List Nat}
  {begins : List (Nat × Nat)} {l : Lookup} {now n : Nat}

theorem start (s : Setup) : Begun (fresh s) [] [] [] :=
  ⟨.refl _, fun _ => List.prefix_rfl⟩

/-- Only the clock and the lookups matter. -/
theorem keep (h : Begun a grants begins overtaken)
    (lookups : a'.lookups = a.lookups)
    (now : a'.now = a.now) : Begun a' grants begins overtaken :=
  ⟨by rw [waiting, lookups, now]; exact h.all, h.inTurn⟩

/-- A lookup is given its permit. -/
theorem grant (h : Begun a grants begins overtaken)
    (count : grants.length = a.admitted) {id : UInt64}
    {pid : Pid} {free : Nat} :
    Begun { a with
      reading := .ready, free, admitted := a.admitted + 1
      lookups := a.lookups ++ [⟨a.admitted, id, pid, .waiting⟩] }
        (grants ++ [a.now]) begins overtaken := by
  have last : (grants ++ [a.now]).zipIdx =
      grants.zipIdx ++ [(a.now, a.admitted)] := by
    rw [List.zipIdx_append, List.zipIdx_singleton, Nat.zero_add, count]
  refine ⟨?_, fun none => last ▸ (h.inTurn none).trans (List.prefix_append _ _)⟩
  rw [last, waiting, List.filter_append, List.map_append, ← List.append_assoc]
  exact h.all.append_right [(a.now, a.admitted)]

/-- The first of the lookups that are waiting is the next to begin. -/
theorem prefix_concat {others : List (Nat × Nat)}
    (all : (begins ++ (now, n) :: others).Perm grants.zipIdx)
    (inTurn : begins <+: grants.zipIdx) (first : ∀ x ∈ others, n ≤ x.2) :
    begins ++ [(now, n)] <+: grants.zipIdx := by
  have sorted : grants.zipIdx.Pairwise (fun x y => x.2 < y.2) := by
    rw [← List.pairwise_map (f := Prod.snd), List.zipIdx_map_snd]
    exact List.pairwise_lt_range' 1
  -- numbers rise along the permits: the first of the rest is the least of those
  -- that are left
  obtain ⟨rest, parts⟩ := inTurn
  rw [← parts] at all sorted ⊢
  have same := (List.perm_append_left_iff _).mp all
  obtain ⟨x, more, rfl⟩ : ∃ x more, rest = x :: more :=
    List.exists_cons_of_ne_nil fun none => by simp [none] at same
  have least : ∀ y ∈ more, x.2 < y.2 :=
    (List.pairwise_cons.mp (List.pairwise_append.mp sorted).2.1).1
  obtain rfl : x = (now, n) := by
    rcases List.mem_cons.mp (same.mem_iff.mpr (List.mem_cons_self ..))
      with same | behind
    · exact same
    · rcases List.mem_cons.mp (same.mem_iff.mp (List.mem_cons_self ..))
        with same | ahead
      · exact same.symm
      · exact absurd (least _ ahead) (Nat.not_lt.mpr (first x behind))
  exact (List.prefix_append_right_inj _).mpr (List.prefix_append [_] more)

/-- A lookup that waits is one of those that wait. -/
theorem perm_waiting (o : Orderly s a) (held : l ∈ a.lookups) :
    a.waiting.Perm ((if l.isWaiting then [(a.now, l.number)] else []) ++
      (a.release l.number).waiting) := by
  have split := ((perm_release o.numbers held).filter Lookup.isWaiting).map fun m =>
    (a.now, m.number)
  rw [List.filter_cons] at split
  split_ifs at split ⊢ <;> exact split

/-- A lookup that is moved on does not wait. -/
theorem perm_waiting_setStage (o : Orderly s a) (held : l ∈ a.lookups)
    (stage : Stage) (begun : Lookup.isWaiting { l with stage } = false) :
    (a.setStage l.number stage).waiting.Perm (a.release l.number).waiting := by
  have split := ((perm_setStage o.numbers held stage).filter Lookup.isWaiting).map
    fun m => (a.now, m.number)
  rwa [List.filter_cons, begun, if_neg Bool.false_ne_true] at split

/-- A lookup begins. -/
theorem begin (h : Begun a grants begins overtaken) (o : Orderly s a)
    (held : l ∈ a.lookups) (waits : l.stage = .waiting) :
    Begun (a.setStage l.number (.running a.now)) grants
      (begins ++ [(a.now, l.number)])
      (overtaken ++ a.waitingBefore l.number) := by
  have before := perm_waiting o held
  have after := perm_waiting_setStage o held (.running a.now) rfl
  have isWaiting : l.isWaiting = true := by rw [Lookup.isWaiting, waits]
  rw [isWaiting, if_pos rfl] at before
  have all : (begins ++ (a.now, l.number) :: (a.release l.number).waiting).Perm
      grants.zipIdx :=
    (before.append_left begins).symm.trans h.all
  refine ⟨?_, ?_⟩
  · rw [List.append_assoc]
    exact (after.append_left _).append_left begins |>.trans all
  · intro none
    obtain ⟨none, first⟩ := List.append_eq_nil_iff.mp none
    -- nobody in front of it is waiting, so whoever still waits is behind it
    refine prefix_concat all (h.inTurn none) ?_
    intro x other
    obtain ⟨m, kept, rfl⟩ := List.mem_map.mp other
    obtain ⟨kept, waits⟩ := List.mem_filter.mp kept
    by_contra ahead
    have overtaken : m.number ∈ a.waitingBefore l.number := by
      refine List.mem_map_of_mem
        (List.mem_filter.mpr ⟨List.mem_of_mem_filter kept, ?_⟩)
      simpa [waits] using ahead
    rw [first] at overtaken
    cases overtaken

/-- A lookup that has begun comes to its end. -/
theorem finish (h : Begun a grants begins overtaken) (o : Orderly s a)
    (held : l ∈ a.lookups) {since : Nat} (runs : l.stage = .running since)
    (r : LookupReply) :
    Begun (a.setStage l.number (.answered r)) grants begins overtaken := by
  have before := perm_waiting o held
  have after := perm_waiting_setStage o held (.answered r) rfl
  have begun : l.isWaiting = false := by rw [Lookup.isWaiting, runs]
  rw [begun, if_neg Bool.false_ne_true, List.nil_append] at before
  exact ⟨((after.trans before.symm).append_left begins).trans h.all, h.inTurn⟩

/-- A lookup that has its answer is let go. -/
theorem release (h : Begun a grants begins overtaken) (o : Orderly s a)
    (held : l ∈ a.lookups) {r : LookupReply} (done : l.stage = .answered r) :
    Begun (a.release l.number) grants begins overtaken := by
  have before := perm_waiting o held
  have begun : l.isWaiting = false := by rw [Lookup.isWaiting, done]
  rw [begun, if_neg Bool.false_ne_true, List.nil_append] at before
  exact ⟨(before.symm.append_left begins).trans h.all, h.inTurn⟩

/-- When all lookups run none is waiting. -/
theorem waiting_eq_nil (running :
    ∀ l ∈ a.lookups, ∃ since, l.stage = .running since) : a.waiting = [] := by
  have none : a.lookups.filter Lookup.isWaiting = [] := by
    rw [List.filter_eq_nil_iff]
    intro l held
    obtain ⟨since, runs⟩ := running l held
    simp [Lookup.isWaiting, runs]
  rw [waiting, none, List.map_nil]

/-- Time passes while all lookups run. -/
theorem elapse (h : Begun a grants begins overtaken) (ms : Nat)
    (running : ∀ l ∈ a.lookups, ∃ since, l.stage = .running since) :
    Begun { a with now := a.now + ms } grants begins overtaken := by
  -- a lookup that waits would begin later than its permit says
  have before := h.all
  rw [waiting_eq_nil running] at before
  have after : waiting { a with now := a.now + ms } = [] := waiting_eq_nil running
  exact ⟨after ▸ before, h.inTurn⟩

end Begun

end ElementAgent.Agent

import ElementAgent.CommandLine.OneShot
import ElementAgent.Proofs.Run

/-!
# What agents remove

An agent may take away a socket that nobody listens on, and the socket that it has
bound itself; an agent that is refused may take away nothing
(`Site.Event.IsConsiderate`). Main statement (`removals_of_run`): whatever happens
at a site, what is taken away is on record and is never a directory. An event
takes away what it may not in exactly four cases (`Site.Wrongs`), and in none of
them if agents take turns, their path fits an address and nobody puts a file or a
link in an agent's place (`Site.InTurn`). Agents that do not take turns remove
each other's sockets (`removals_inconsiderate`).
-/

namespace ElementAgent

/-- What an agent that stops removes. -/
def Occupant.IsRemovable : Occupant → Prop
  | .socket _ | .file | .link _ => True
  | .nothing | .directory | .unreachable _ => False

/-- What is neither a socket nor out of an agent's reach. -/
def Occupant.IsForeign : Occupant → Prop
  | .file | .link _ => True
  | _ => False

namespace Occupant

variable {o : Occupant}

theorem IsForeign.isRemovable (h : o.IsForeign) : o.IsRemovable := by
  cases o with
  | file | link _ => trivial
  | nothing | socket _ | directory | unreachable _ => exact h.elim

theorem IsRemovable.socket_or_isForeign (h : o.IsRemovable) :
    (∃ b, o = .socket b) ∨ o.IsForeign := by
  cases o with
  | socket b => exact .inl ⟨b, rfl⟩
  | file | link _ => exact .inr trivial
  | nothing | directory | unreachable _ => exact h.elim

end Occupant

namespace Site

variable {s t : Site} {e : Event} {es : List Event} {path : Path}
  {occupant : Occupant}

/-- A run of a site is the fold of its step. -/
theorem run?_eq_foldlM (s : Site) (es : List Event) :
    s.run? es = es.foldlM step? s := by
  induction es generalizing s with
  | nil => rfl
  | cons e es ih =>
      rw [run?, List.foldlM_cons]
      cases s.step? e with
      | none => rfl
      | some t => exact ih t

/-! ## What an event does -/

/-- The next agent has bound its socket. -/
def seated (s : Site) : Site :=
  { s with
    occupant := .socket (some s.bound), bound := s.bound + 1,
    running := s.running ++ [s.bound] }

/-- An agent no longer runs. -/
def without (s : Site) (n : Nat) : Site := { s with running := s.running.erase n }

/-- What an event makes of a site. -/
inductive Step (s : Site) : Event → Site → Prop
  | bind (free : s.occupant = .nothing) (fits : s.path.fitsAddress = true) :
      Step s .start s.seated
  | rebind {b} (old : s.occupant = .socket b) (fits : s.path.fitsAddress = true) :
      Step s .start (s.remove s.bound).seated
  /-- The way is cleared, and then the agent is refused. -/
  | clear {b} (old : s.occupant = .socket b) (long : s.path.fitsAddress = false) :
      Step s .start (s.remove s.bound)
  | refuse (kept : ∀ b, s.occupant ≠ .socket b) : Step s .start s
  | take {n} (runs : n ∈ s.running) (there : s.occupant.IsRemovable) :
      Step s (.stop n) ((s.without n).remove n)
  | leave {n} (runs : n ∈ s.running) (kept : ¬s.occupant.IsRemovable) :
      Step s (.stop n) (s.without n)
  | replace (what : Occupant) : Step s (.replace what) { s with occupant := what }

theorem start_of_nothing (free : s.occupant = .nothing) :
    s.start = if s.path.fitsAddress then (none, s.seated)
      else (some (.host .addressTooLong), s) := by
  simp only [start, free, bind]
  split_ifs <;> rfl

theorem start_of_socket {b : Option Nat} (old : s.occupant = .socket b) :
    s.start = if s.path.fitsAddress then (none, (s.remove s.bound).seated)
      else (some (.host .addressTooLong), s.remove s.bound) := by
  have same : (s.remove s.bound).path = s.path := rfl
  simp only [start, old, bind, same]
  split_ifs <;> rfl

theorem start_of_other (filled : s.occupant ≠ .nothing)
    (kept : ∀ b, s.occupant ≠ .socket b) :
    ∃ why, s.start = (some why, s) := by
  cases old : s.occupant with
  | nothing => exact absurd old filled
  | socket b => exact absurd old (kept b)
  | file | directory | link _ => exact ⟨.occupied, by simp only [start, old]⟩
  | unreachable fault => exact ⟨.host fault, by simp only [start, old]⟩

theorem step_start (s : Site) : Step s .start s.start.2 := by
  by_cases free : s.occupant = .nothing
  · rw [start_of_nothing free]
    split_ifs with fits
    · exact .bind free fits
    · exact .refuse (by simp [free])
  · by_cases old : ∃ b, s.occupant = .socket b
    · obtain ⟨b, old⟩ := old
      rw [start_of_socket old]
      split_ifs with fits
      · exact .rebind old fits
      · exact .clear old (by simpa using fits)
    · obtain ⟨why, refused⟩ := start_of_other free (not_exists.mp old)
      rw [refused]
      exact .refuse (not_exists.mp old)

theorem step_stop {n : Nat} (runs : n ∈ s.running) :
    Step s (.stop n) (s.stop n) := by
  cases old : s.occupant with
  | nothing | directory | unreachable _ =>
      have kept : ¬s.occupant.IsRemovable := by rw [old]; exact id
      have stopped : s.stop n = s.without n := by simp only [stop, old, without]
      exact stopped ▸ .leave runs kept
  | socket _ | file | link _ =>
      have there : s.occupant.IsRemovable := by rw [old]; trivial
      have stopped : s.stop n = (s.without n).remove n := by
        simp only [stop, old, without]
      exact stopped ▸ .take runs there

theorem step_of_step? (h : s.step? e = some t) : Step s e t := by
  cases e with
  | start =>
      cases h
      exact step_start s
  | stop n =>
      by_cases runs : n ∈ s.running
      · rw [step?, if_pos runs] at h
        cases h
        exact step_stop runs
      · rw [step?, if_neg runs] at h
        cases h
  | replace what =>
      cases h
      exact .replace what

theorem Step.runs {n : Nat} (h : Step s (.stop n) t) : n ∈ s.running := by
  cases h with
  | take runs there => exact runs
  | leave runs kept => exact runs

/-! ## What may go -/

/-- Whatever an event takes from the path is put on record, unless it is somebody
else who takes it. -/
def IsRecorded (s : Site) (e : Event) (t : Site) : Prop :=
  t.occupant = s.occupant ∨ s.occupant = .nothing ∨
    (∃ n, t.removed = (n, s.occupant) :: s.removed) ∨
    ∃ what, e = .replace what

theorem Step.isRecorded (h : Step s e t) : IsRecorded s e t := by
  cases h with
  | bind free fits => exact .inr (.inl free)
  | rebind old fits => exact .inr (.inr (.inl ⟨_, rfl⟩))
  | clear old long => exact .inr (.inr (.inl ⟨_, rfl⟩))
  | refuse kept => exact .inl rfl
  | take runs there => exact .inr (.inr (.inl ⟨_, rfl⟩))
  | leave runs kept => exact .inl rfl
  | replace what => exact .inr (.inr (.inr ⟨what, rfl⟩))

/-- An event takes away no more than it may. -/
structure Event.IsConsiderate (s : Site) (e : Event) (t : Site) : Prop where
  /-- What an agent removes is a socket: its own, or one that no
  agent listens on. -/
  removes : ∀ n what, t.removed = (n, what) :: s.removed →
    ∃ b, what = .socket b ∧ ∀ k ∈ s.running, b = some k → k = n
  /-- An agent that is refused leaves the path as it is. -/
  refused : e = .start → ∀ (o : ServeOptions) fault, (o.start s).1 = .error fault →
    (o.start s).2.occupant = s.occupant

/-- The events that take away what they may not. -/
inductive Wrongs (s : Site) : Event → Prop
  /-- An agent starts where another one listens. -/
  | evicts {k} (runs : k ∈ s.running) (old : s.occupant = .socket (some k)) :
      Wrongs s .start
  /-- An agent clears the way for a socket that it cannot bind. -/
  | clears {b} (old : s.occupant = .socket b) (long : s.path.fitsAddress = false) :
      Wrongs s .start
  /-- An agent stops when a file or a link has come to lie in the place
  of its socket. -/
  | mistakes {n} (there : s.occupant.IsForeign) : Wrongs s (.stop n)
  /-- An agent stops when another one has taken its place. -/
  | unseats {n k} (runs : k ∈ s.running) (other : k ≠ n)
      (old : s.occupant = .socket (some k)) :
      Wrongs s (.stop n)

/-- An agent that is refused leaves the path as it is, except for a socket in the
way of one that it cannot bind. -/
theorem refused_iff {o : ServeOptions} :
    (∀ fault, (o.start s).1 = .error fault → (o.start s).2.occupant = s.occupant) ↔
      (o.fault? = none → s.path.fitsAddress = false →
        ∀ b, s.occupant ≠ .socket b) := by
  unfold ServeOptions.start
  cases invalid : o.fault? with
  | some fault => simp
  | none =>
      by_cases free : s.occupant = .nothing
      · rw [start_of_nothing free]
        split_ifs <;> simp [free]
      · by_cases old : ∃ b, s.occupant = .socket b
        · obtain ⟨b, old⟩ := old
          rw [start_of_socket old]
          split_ifs with fits
          · simp [fits]
          · simp [fits, old, remove]
        · obtain ⟨why, refused⟩ := start_of_other free (not_exists.mp old)
          rw [refused]
          simpa using fun _ => not_exists.mp old

theorem Step.not_wrongs (h : Step s e t) (numbered : ∀ k ∈ s.running, k < s.bound)
    (considerate : e.IsConsiderate s t) : ¬Wrongs s e := by
  obtain ⟨removes, refused⟩ := considerate
  rintro (⟨runs, old⟩ | ⟨old, long⟩ | there | ⟨runs, other, old⟩)
  · -- the one that starts has a number that none of the others has
    have own (added : t.removed = (s.bound, s.occupant) :: s.removed) : False := by
      obtain ⟨b, same, own⟩ := removes _ _ added
      obtain rfl := Occupant.socket.inj (old.symm.trans same)
      exact Nat.ne_of_lt (numbered _ runs) (own _ runs rfl)
    cases h with
    | bind free fits => rw [old] at free; cases free
    | rebind _ fits => exact own rfl
    | clear _ long => exact own rfl
    | refuse kept => exact kept _ old
  · exact refused_iff.mp (refused rfl {}) rfl long _ old
  · cases h with
    | take runs removable =>
        obtain ⟨b, same, -⟩ := removes _ _ rfl
        rw [show s.occupant = _ from same] at there
        exact there
    | leave runs kept => exact kept (there.isRemovable)
  · cases h with
    | take _ removable =>
        obtain ⟨b, same, own⟩ := removes _ _ rfl
        obtain rfl := Occupant.socket.inj (old.symm.trans same)
        exact other (own _ runs rfl)
    | leave _ kept => exact kept (by rw [old]; trivial)

theorem Step.isConsiderate (h : Step s e t) (harmless : ¬Wrongs s e) :
    e.IsConsiderate s t where
  removes n what added := by
    cases h with
    | bind free fits | refuse kept | leave runs kept | replace what =>
        exact absurd added.symm (List.cons_ne_self _ _)
    | rebind old fits | clear old long =>
        obtain ⟨⟨rfl, rfl⟩, -⟩ := List.cons.inj added
        refine ⟨_, old, ?_⟩
        rintro k runs rfl
        exact absurd (.evicts runs old) harmless
    | take runs removable =>
        obtain ⟨⟨rfl, rfl⟩, -⟩ := List.cons.inj added
        rcases removable.socket_or_isForeign with ⟨b, old⟩ | foreign
        · refine ⟨b, old, ?_⟩
          rintro k runs rfl
          by_contra other
          exact harmless (.unseats runs other old)
        · exact absurd (.mistakes foreign) harmless
  refused := by
    rintro rfl o
    exact refused_iff.mpr fun _ long b old => harmless (.clears old long)

/-! ## Taking turns -/

/-- An event that leaves the others their place. An agent starts when no other one
runs, at a path that it can bind a socket to, and nobody puts a file or a link in
the place of an agent that runs. -/
def IsTurn (s : Site) : Event → Prop
  | .start => s.running = [] ∧ s.path.fitsAddress = true
  | .stop _ => True
  | .replace what => s.running ≠ [] → ¬what.IsForeign

/-- All events of a run are in turn. -/
def InTurn : Site → List Event → Prop
  | _, [] => True
  | s, e :: es => s.IsTurn e ∧ ∀ t, s.step? e = some t → t.InTurn es

/-- One agent runs at most, and nobody has put a file or a link in its place. -/
structure IsSettled (s : Site) : Prop where
  alone : ∀ j ∈ s.running, ∀ k ∈ s.running, j = k
  undisturbed : s.running ≠ [] → ¬s.occupant.IsForeign

theorem isSettled_fresh (path : Path) (occupant : Occupant) :
    (fresh path occupant).IsSettled :=
  ⟨fun _ never => absurd never List.not_mem_nil, fun never => absurd rfl never⟩

theorem Step.isSettled (h : Step s e t) (settled : s.IsSettled)
    (turn : s.IsTurn e) : t.IsSettled := by
  obtain ⟨alone, undisturbed⟩ := settled
  have fewer {n : Nat} : ∀ j ∈ s.running.erase n, ∀ k ∈ s.running.erase n, j = k :=
    fun j left k left' =>
      alone j (List.mem_of_mem_erase left) k (List.mem_of_mem_erase left')
  cases h with
  | bind free fits | rebind old fits =>
      exact ⟨by simp [seated, remove, turn.1], fun _ => id⟩
  | clear old long => exact ⟨alone, fun _ => id⟩
  | refuse kept => exact ⟨alone, undisturbed⟩
  | take runs there => exact ⟨fewer, fun _ => id⟩
  | leave runs kept => exact ⟨fewer, fun _ there => kept there.isRemovable⟩
  | replace what => exact ⟨alone, turn⟩

/-- An event in turn wrongs nobody. -/
theorem IsSettled.harmless (settled : s.IsSettled) (turn : s.IsTurn e)
    (h : Step s e t) : ¬Wrongs s e := by
  rintro (⟨runs, old⟩ | ⟨old, long⟩ | there | ⟨runs, other, old⟩)
  · rw [turn.1] at runs
    cases runs
  · exact absurd (turn.2.symm.trans long) (by decide)
  · have runs : _ ∈ s.running := h.runs
    exact settled.undisturbed (List.ne_nil_of_mem runs) there
  · exact other (settled.alone _ runs _ h.runs)

/-! ## Whole runs -/

/-- What every run keeps. -/
structure IsKept (s : Site) : Prop where
  numbered : ∀ k ∈ s.running, k < s.bound
  /-- No agent has removed a directory. -/
  removable : ∀ n what, (n, what) ∈ s.removed → what.IsRemovable

theorem isKept_fresh (path : Path) (occupant : Occupant) :
    (fresh path occupant).IsKept :=
  ⟨fun _ never => absurd never List.not_mem_nil,
    fun _ _ never => absurd never List.not_mem_nil⟩

theorem IsKept.remove (h : s.IsKept) (there : s.occupant.IsRemovable) (n : Nat) :
    (s.remove n).IsKept where
  numbered := h.numbered
  removable m what listed := by
    rcases List.mem_cons.mp listed with now | before
    · cases now
      exact there
    · exact h.removable m what before

theorem IsKept.seated (h : s.IsKept) : s.seated.IsKept where
  numbered k runs := by
    rcases List.mem_append.mp runs with runs | last
    · exact Nat.lt_succ_of_lt (h.numbered k runs)
    · rw [List.mem_singleton.mp last]
      exact Nat.lt_succ_self _
  removable := h.removable

theorem IsKept.without (h : s.IsKept) (n : Nat) : (s.without n).IsKept where
  numbered k left := h.numbered k (List.mem_of_mem_erase left)
  removable := h.removable

theorem Step.isKept (h : Step s e t) (kept : s.IsKept) : t.IsKept := by
  cases h with
  | bind free fits => exact kept.seated
  | rebind old fits => exact (kept.remove (by rw [old]; trivial) _).seated
  | clear old long => exact kept.remove (by rw [old]; trivial) _
  | refuse other => exact kept
  | take runs there => exact (kept.without _).remove there _
  | leave runs other => exact kept.without _
  | replace what => exact ⟨kept.numbered, kept.removable⟩

theorem isKept_of_run (run : (fresh path occupant).run? es = some s) :
    s.IsKept := by
  rw [run?_eq_foldlM] at run
  exact Run.induct (P := fun _ s => s.IsKept) (isKept_fresh path occupant)
    (fun _ _ _ _ _ kept step => (step_of_step? step).isKept kept) run

/-- A run whose events are all in turn leaves everything settled. -/
theorem IsSettled.run (settled : s.IsSettled) (turns : s.InTurn es)
    (run : s.run? es = some t) :
    t.IsSettled := by
  induction es generalizing s with
  | nil =>
      cases run
      exact settled
  | cons e es ih =>
      obtain ⟨turn, turns⟩ := turns
      rw [run?] at run
      cases step : s.step? e with
      | none => simp [step] at run
      | some r =>
          rw [step] at run
          exact ih ((step_of_step? step).isSettled settled turn) (turns r step) run

/-- Whatever happens at a site, agents remove no directory, and what they take
away is on record. An event takes away what it may not in four cases and in no
others. If agents take turns, at a path that fits an address, and nobody puts a
file or a link in an agent's place, none of these cases arises. -/
theorem removals_of_run (run : (fresh path occupant).run? es = some s) :
    (∀ n what, (n, what) ∈ s.removed → what.IsRemovable) ∧
    (∀ e t, s.step? e = some t →
      IsRecorded s e t ∧ (e.IsConsiderate s t ↔ ¬Wrongs s e)) ∧
    ((fresh path occupant).InTurn es →
      ∀ e t, s.IsTurn e → s.step? e = some t → e.IsConsiderate s t) := by
  have kept := isKept_of_run run
  refine ⟨kept.removable, fun e t step => ?_, fun turns e t turn step => ?_⟩
  · have step := step_of_step? step
    exact ⟨step.isRecorded, step.not_wrongs kept.numbered, step.isConsiderate⟩
  · have step := step_of_step? step
    have settled := (isSettled_fresh path occupant).run turns run
    exact step.isConsiderate (settled.harmless turn step)

/-- An agent clears a leftover socket out of its way and finds a directory in the
place of its own socket when it stops. The next one removes its own. -/
theorem removals_of_run_leftover :
    (fresh [0x2F] (.socket none)).run?
      [.start, .replace .directory, .stop 0, .replace .nothing, .start] =
      some ⟨[0x2F], .socket (some 1), 2, [1], [(0, .socket none)]⟩ ∧
    (Event.stop 1).IsConsiderate
      ⟨[0x2F], .socket (some 1), 2, [1], [(0, .socket none)]⟩
      ⟨[0x2F], .nothing, 2, [], [(1, .socket (some 1)), (0, .socket none)]⟩ := by
  have run : (fresh [0x2F] (.socket none)).run?
      [.start, .replace .directory, .stop 0, .replace .nothing, .start] =
      some ⟨[0x2F], .socket (some 1), 2, [1], [(0, .socket none)]⟩ := rfl
  refine ⟨run, (removals_of_run run).2.2 ?_ _ _ trivial rfl⟩
  refine ⟨⟨rfl, rfl⟩, ?_⟩
  rintro _ ⟨⟩
  refine ⟨fun _ => id, ?_⟩
  rintro _ ⟨⟩
  refine ⟨trivial, ?_⟩
  rintro _ ⟨⟩
  refine ⟨fun _ => id, ?_⟩
  rintro _ ⟨⟩
  exact ⟨⟨rfl, rfl⟩, fun _ _ => trivial⟩

/-- A path that does not fit an address. -/
def longPath : Path := List.replicate 140 0x2F

/-- An agent that starts removes the socket on which another one listens, and that
one removes the newcomer's when it stops. An agent that is refused has removed the
socket that it found. -/
theorem removals_inconsiderate :
    (∃ s t, (fresh [0x2F] .nothing).run? [.start] = some s ∧ s.dial = .ok () ∧
      s.step? .start = some t ∧ 0 ∈ t.running ∧
      t.removed = [(1, .socket (some 0))] ∧
      ¬Event.start.IsConsiderate s t) ∧
    (∃ s t, (fresh [0x2F] .nothing).run? [.start, .start] = some s ∧
      s.step? (.stop 0) = some t ∧ 1 ∈ t.running ∧
      t.removed.head? = some (0, .socket (some 1)) ∧
      ¬(Event.stop 0).IsConsiderate s t) ∧
    ∃ t, (fresh longPath (.socket none)).step? .start = some t ∧
      (fresh longPath (.socket none)).start.1 = some (.host .addressTooLong) ∧
      t.occupant = .nothing ∧
      ¬Event.start.IsConsiderate (fresh longPath (.socket none)) t := by
  refine ⟨?_, ?_, ?_⟩
  · refine ⟨_, _, rfl, rfl, rfl, by decide, rfl, fun considerate => ?_⟩
    exact (step_of_step? rfl).not_wrongs (by decide) considerate
      (.evicts (k := 0) (by decide) rfl)
  · refine ⟨_, _, rfl, rfl, by decide, rfl, fun considerate => ?_⟩
    exact (step_of_step? rfl).not_wrongs (by decide) considerate
      (.unseats (k := 1) (by decide) (by decide) rfl)
  · have long : longPath.fitsAddress = false := by simp [longPath, Path.fitsAddress]
    have refused : (fresh longPath (.socket none)).start =
        (some (.host .addressTooLong),
          (fresh longPath (.socket none)).remove 0) := by
      rw [start_of_socket rfl]
      exact if_neg (by simp [fresh, long])
    refine ⟨_, rfl, by rw [refused], by rw [refused]; rfl, fun considerate => ?_⟩
    exact (step_start _).not_wrongs
      (fun _ never => absurd never List.not_mem_nil) considerate
      (.clears rfl long)

end Site

end ElementAgent

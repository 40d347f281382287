import ElementAgent.Proofs.Element.Changes

/-!
# A tree and its history

A chronicle writes down what has been asked of a tree and what it answered. Main
statement (`look_ups_tell_the_log`): as long as numbers last, the look-ups of the
tree say what the chronicle says. A node has the owner it was last given to, and a
process the root it was last given, unless something has taken it since; what is
made is new, and a node that has been taken is never given again.
-/

namespace ElementAgent

open ElementAgent.Tree (Change Entry)

/-- A tree and all that has been asked of it. -/
structure Chronicle where
  tree : Tree
  /-- What was asked and answered, oldest first. -/
  log : List Entry
  /-- How many nodes have been made. -/
  made : Nat

namespace Chronicle

def fresh : Chronicle := ⟨.empty, [], 0⟩

def step (h : Chronicle) (c : Change) : Chronicle where
  tree := (h.tree.change c).2
  log := h.log ++ [h.tree.entry c]
  made := h.made + if h.tree.makes c then 1 else 0

/-- The chronicle of a tree of which nothing else has been asked. -/
def after (cs : List Change) : Chronicle := cs.foldl step fresh

/-- Something was given, and since it was last given nothing has taken it. -/
def Stands (gives takes : Entry → Prop) (log : List Entry) : Prop :=
  ∃ before e since, log = before ++ e :: since ∧ gives e ∧
    ∀ e' ∈ since, ¬gives e' ∧ ¬takes e'

/-- The node was answered before. -/
def Answered (log : List Entry) (n : Node) : Prop := ∃ e ∈ log, e.answer = some n

/-- The node is not the whole screen's, and was never answered before. -/
def IsNew (log : List Entry) (n : Node) : Prop := n ≠ Tree.screen ∧ ¬Answered log n

variable {gives takes : Entry → Prop} {log : List Entry} {e : Entry}

/-- One more entry gives it, or leaves it alone. -/
theorem stands_concat :
    Stands gives takes (log ++ [e]) ↔
    gives e ∨ Stands gives takes log ∧ ¬takes e := by
  constructor
  · rintro ⟨before, g, since, split, given, kept⟩
    -- the new entry is the one that gives it, or comes after that one
    rcases List.eq_nil_or_concat since with rfl | ⟨since, last, rfl⟩
    · obtain ⟨-, same⟩ := List.append_inj' split rfl
      cases same
      exact .inl given
    · rw [List.concat_eq_append] at split kept
      rw [← List.cons_append, ← List.append_assoc] at split
      obtain ⟨rfl, same⟩ := List.append_inj' split rfl
      cases same
      exact .inr ⟨⟨before, g, since, rfl, given,
        fun e' he' => kept e' (List.mem_append_left _ he')⟩, (kept e (by simp)).2⟩
  · rintro (given | ⟨⟨before, g, since, rfl, given, kept⟩, spared⟩)
    · exact ⟨log, e, [], rfl, given, by simp⟩
    · by_cases again : gives e
      · exact ⟨before ++ g :: since, e, [], rfl, again, by simp⟩
      · refine ⟨before, g, since ++ [e], by simp, given, ?_⟩
        intro e' he'
        rcases List.mem_append.mp he' with old | new
        · exact kept e' old
        · rw [List.mem_singleton.mp new]
          exact ⟨again, spared⟩

theorem Stands.exists_mem (stands : Stands gives takes log) :
    ∃ e ∈ log, gives e := by
  obtain ⟨before, e, since, rfl, given, -⟩ := stands
  exact ⟨e, by simp, given⟩

theorem not_stands_nil : ¬Stands gives takes [] := by
  intro stands
  obtain ⟨e, he, -⟩ := stands.exists_mem
  cases he

/-! ## What holds while numbers last -/

/-- The look-ups of the tree say what the log says, and numbers are
given in order. -/
structure IsFaithful (h : Chronicle) : Prop where
  sound : h.tree.IsSound
  next : h.tree.next = UInt64.ofNat (h.made + 1)
  /-- The answers are nodes that have been made. -/
  numbered : ∀ {n}, Answered h.log n → 0 < n.raw.toNat ∧ n.raw.toNat ≤ h.made
  owner : ∀ {n p}, h.tree.ownerOf? n = some p ↔
    Stands (Entry.Gives p n) (Entry.Takes p n) h.log
  root : ∀ {p n}, h.tree.rootOf? p = some n ↔
    Stands (Entry.GivesRoot p n) (Entry.Takes p n) h.log
  /-- A node is given to one process only. -/
  single : ∀ {e e' p q n}, e ∈ h.log → e' ∈ h.log → e.Gives p n →
    e'.Gives q n → p = q

variable {h : Chronicle} {c : Change} {cs more : List Change} {n : Node} {p q : Pid}

theorem IsFaithful.answered_of_owner (faithful : h.IsFaithful)
    (owned : h.tree.ownerOf? n = some p) :
    ∃ e ∈ h.log, e.Gives p n :=
  (faithful.owner.mp owned).exists_mem

/-- The node of the whole screen belongs to no process. -/
theorem IsFaithful.ownerOf?_screen (faithful : h.IsFaithful) :
    h.tree.ownerOf? Tree.screen = none := by
  apply Option.eq_none_iff_forall_ne_some.mpr
  intro p owned
  obtain ⟨e, old, given⟩ := faithful.answered_of_owner owned
  exact absurd (faithful.numbered ⟨e, old, given.2⟩).1 (by decide)

theorem toNat_next (faithful : h.IsFaithful) (few : h.made < UInt64.size - 1) :
    h.tree.next.toNat = h.made + 1 := by
  have size : UInt64.size = 2 ^ 64 := rfl
  rw [faithful.next, UInt64.toNat_ofNat']
  omega

/-- The node of the next number has not been answered before, also where the last
number has been given and the next is the screen's. -/
theorem not_answered_next (faithful : h.IsFaithful) (few : h.made < UInt64.size) :
    ¬Answered h.log ⟨h.tree.next⟩ := by
  intro answered
  have bound := faithful.numbered answered
  have size : UInt64.size = 2 ^ 64 := rfl
  simp only [faithful.next, UInt64.toNat_ofNat'] at bound
  omega

theorem isNew_next (faithful : h.IsFaithful) (few : h.made < UInt64.size - 1) :
    IsNew h.log ⟨h.tree.next⟩ := by
  refine ⟨?_, not_answered_next faithful (by omega)⟩
  intro same
  have zero : h.tree.next = 0 := congrArg Node.raw same
  have number := toNat_next faithful few
  rw [zero] at number
  cases number

theorem ownerOf?_next (faithful : h.IsFaithful) (few : h.made < UInt64.size) :
    h.tree.ownerOf? ⟨h.tree.next⟩ = none := by
  apply Option.eq_none_iff_forall_ne_some.mpr
  intro p owned
  obtain ⟨e, he, given⟩ := faithful.answered_of_owner owned
  exact not_answered_next faithful few ⟨e, he, given.2⟩

/-! ## One more change -/

/-- What a change gives was never answered before, or belongs to that
process already. -/
theorem new_or_owned_of_gives (faithful : h.IsFaithful) (few : h.made < UInt64.size)
    (given : (h.tree.entry c).Gives p n) :
    ¬Answered h.log n ∨ h.tree.ownerOf? n = some p := by
  obtain ⟨asked, answered⟩ := given
  rcases h.tree.makes_cases c with ⟨-, new, -⟩ | ⟨-, -, old⟩
  · have same : (⟨h.tree.next⟩ : Node) = n :=
      Option.some.inj (new.symm.trans answered)
    exact .inl (same ▸ not_answered_next faithful few)
  · obtain ⟨q, rfl, root⟩ := old n answered
    have same : q = p := by simpa [Tree.entry] using asked
    exact .inr (faithful.sound.rooted (same ▸ root))

theorem numbered_step (faithful : h.IsFaithful)
    (few : (h.step c).made < UInt64.size)
    (answered : Answered (h.step c).log n) :
    0 < n.raw.toNat ∧ n.raw.toNat ≤ (h.step c).made := by
  have grows : h.made ≤ (h.step c).made := Nat.le_add_right ..
  obtain ⟨e, he, answer⟩ := answered
  rcases List.mem_append.mp he with old | last
  · have bound := faithful.numbered ⟨e, old, answer⟩
    exact ⟨bound.1, by omega⟩
  · rw [List.mem_singleton.mp last] at answer
    rcases h.tree.makes_cases c with ⟨makes, new, -⟩ | ⟨-, -, root⟩
    · have same : (⟨h.tree.next⟩ : Node) = n :=
        Option.some.inj (new.symm.trans answer)
      have made : (h.step c).made = h.made + 1 := by simp [step, makes]
      have number := toNat_next faithful (by omega)
      rw [← same]
      dsimp only
      omega
    · -- an answer that is not new is a root, and that was answered before
      obtain ⟨p, -, visible⟩ := root n answer
      obtain ⟨e', he', given⟩ :=
        faithful.answered_of_owner (faithful.sound.rooted visible)
      have bound := faithful.numbered ⟨e', he', given.2⟩
      exact ⟨bound.1, by omega⟩

/-- What a change gives was given to no other process before. -/
theorem single_of_gives (faithful : h.IsFaithful) (few : h.made < UInt64.size)
    (given : (h.tree.entry c).Gives p n) (old : e ∈ h.log) (before : e.Gives q n) :
    p = q := by
  rcases new_or_owned_of_gives faithful few given with new | owned
  · exact absurd ⟨e, old, before.2⟩ new
  · obtain ⟨e', he', given'⟩ := faithful.answered_of_owner owned
    exact faithful.single he' old given' before

theorem made_of_step (few : (h.step c).made < UInt64.size) : h.made < UInt64.size :=
  Nat.lt_of_le_of_lt (Nat.le_add_right ..) few

/-- A change leaves the chronicle faithful as long as it has a number to give, if
it gives one. -/
theorem IsFaithful.step (faithful : h.IsFaithful)
    (few : (h.step c).made < UInt64.size) :
    (h.step c).IsFaithful where
  sound := faithful.sound.change (ownerOf?_next faithful (made_of_step few))
  next := by
    rcases h.tree.makes_cases c with ⟨makes, -, next⟩ | ⟨idle, next, -⟩
    · simp only [Chronicle.step, makes, next, faithful.next, if_true]
      exact (UInt64.ofNat_add _ 1).symm
    · simp only [Chronicle.step, idle, next, faithful.next]
      rfl
  numbered := numbered_step faithful few
  owner := by
    intro n p
    rw [Chronicle.step, stands_concat, ← faithful.owner]
    exact Tree.ownerOf?_change_eq_some_iff faithful.sound
      (ownerOf?_next faithful (made_of_step few))
  root := by
    intro p n
    rw [Chronicle.step, stands_concat, ← faithful.root]
    exact Tree.rootOf?_change_eq_some_iff faithful.sound
  single := by
    intro e e' p q n he he' given given'
    rcases List.mem_append.mp he with old | last
    · rcases List.mem_append.mp he' with old' | last'
      · exact faithful.single old old' given given'
      · rw [List.mem_singleton.mp last'] at given'
        exact (single_of_gives faithful (made_of_step few) given' old given).symm
    · rw [List.mem_singleton.mp last] at given
      rcases List.mem_append.mp he' with old' | last'
      · exact single_of_gives faithful (made_of_step few) given old' given'
      · rw [List.mem_singleton.mp last'] at given'
        exact given.pid_unique given'

theorem isFaithful_fresh : fresh.IsFaithful where
  sound := ⟨List.nodup_nil, List.nodup_nil, fun h => by cases h⟩
  next := rfl
  numbered := by rintro n ⟨e, he, -⟩; cases he
  owner := fun {_ _} => iff_of_false (fun h => by cases h) not_stands_nil
  root := fun {_ _} => iff_of_false (fun h => by cases h) not_stands_nil
  single := by
    intro e e' p q n he
    cases he

/-! ## Every history -/

theorem after_append : after (cs ++ more) = more.foldl step (after cs) := by
  rw [after, List.foldl_append, ← after]

theorem made_le_foldl (more : List Change) : h.made ≤ (more.foldl step h).made := by
  induction more generalizing h with
  | nil => exact Nat.le_refl _
  | cons c more ih => exact Nat.le_trans (Nat.le_add_right ..) (ih (h := h.step c))

theorem isFaithful_foldl (faithful : h.IsFaithful)
    (few : (more.foldl step h).made < UInt64.size) :
    (more.foldl step h).IsFaithful := by
  induction more generalizing h with
  | nil => exact faithful
  | cons c more ih =>
      exact ih (faithful.step (Nat.lt_of_le_of_lt (made_le_foldl more) few)) few

/-- A chronicle is faithful as long as no number has been given twice. -/
theorem isFaithful_after (few : (after cs).made < UInt64.size) :
    (after cs).IsFaithful :=
  isFaithful_foldl isFaithful_fresh few

theorem mem_log_foldl (old : e ∈ h.log) : e ∈ (more.foldl step h).log := by
  induction more generalizing h with
  | nil => exact old
  | cons c more ih => exact ih (List.mem_append_left _ old)

/-- A node that was answered once and has no owner never has one again. -/
theorem ownerOf?_eq_none_foldl (faithful : h.IsFaithful)
    (few : (more.foldl step h).made < UInt64.size) (answered : Answered h.log n)
    (stale : h.tree.ownerOf? n = none) :
    (more.foldl step h).tree.ownerOf? n = none := by
  induction more generalizing h with
  | nil => exact stale
  | cons c more ih =>
      have next : (h.step c).made < UInt64.size :=
        Nat.lt_of_le_of_lt (made_le_foldl more) few
      have now : h.made < UInt64.size := made_of_step next
      obtain ⟨e, old, answer⟩ := answered
      refine ih (faithful.step next) few ⟨e, List.mem_append_left _ old, answer⟩ ?_
      -- what one change gives is new or has its owner already, and this node is
      -- neither
      apply Option.eq_none_iff_forall_ne_some.mpr
      intro p owned
      rcases (Tree.ownerOf?_change_eq_some_iff faithful.sound
        (ownerOf?_next faithful now)).mp owned
        with given | ⟨had, -⟩
      · rcases new_or_owned_of_gives faithful now given with new | had
        · exact new ⟨e, old, answer⟩
        · rw [stale] at had
          cases had
      · rw [stale] at had
        cases had

/-- A node keeps its owner as long as it has one. -/
theorem owner_unique (few : (after (cs ++ more)).made < UInt64.size)
    (owned : (after cs).tree.ownerOf? n = some p)
    (later : (after (cs ++ more)).tree.ownerOf? n = some q) : p = q := by
  rw [after_append] at few later
  have few₀ : (after cs).made < UInt64.size :=
    Nat.lt_of_le_of_lt (made_le_foldl more) few
  have faithful := isFaithful_after few₀
  have faithful' := isFaithful_foldl faithful few
  obtain ⟨e, he, given⟩ := faithful.answered_of_owner owned
  obtain ⟨e', he', given'⟩ := faithful'.answered_of_owner later
  exact faithful'.single (mem_log_foldl he) he' given given'

/-- The look-ups of a tree say what has been asked of it: the owner that a node
was last given to, and the root that a process was last given, stand until
something takes them. Asking for a root again answers the same one; whatever else
is answered is new; asking for a node of a process without a root changes nothing.
A node that was answered once and has no owner has none for good, no node changes
its owner, and a change leaves alone what it neither gives nor takes. -/
theorem look_ups_tell_the_log (cs : List Change)
    (few : (after cs).made < UInt64.size - 1) :
    let h := after cs
    (∀ n p, h.tree.ownerOf? n = some p ↔
      Stands (Entry.Gives p n) (Entry.Takes p n) h.log) ∧
    (∀ p n, h.tree.rootOf? p = some n ↔
      Stands (Entry.GivesRoot p n) (Entry.Takes p n) h.log) ∧
    (∀ p n, h.tree.rootOf? p = some n → h.tree.register p = (n, h.tree)) ∧
    (∀ p, h.tree.rootOf? p = none → IsNew h.log (h.tree.register p).1) ∧
    (∀ p n, (h.tree.extend p).1 = some n → IsNew h.log n) ∧
    (∀ p, (h.tree.extend p).1 = none ↔ h.tree.rootOf? p = none) ∧
    (∀ p, h.tree.rootOf? p = none → (h.tree.extend p).2 = h.tree) ∧
    (∀ more n, (after (cs ++ more)).made < UInt64.size - 1 → Answered h.log n →
      h.tree.ownerOf? n = none → (after (cs ++ more)).tree.ownerOf? n = none) ∧
    (∀ more n p q, (after (cs ++ more)).made < UInt64.size - 1 →
      h.tree.ownerOf? n = some p →
      (after (cs ++ more)).tree.ownerOf? n = some q → p = q) ∧
    (∀ c n, (∀ p, ¬(h.tree.entry c).Gives p n) →
      (∀ p, h.tree.ownerOf? n = some p → ¬(h.tree.entry c).Takes p n) →
      (h.tree.change c).2.ownerOf? n = h.tree.ownerOf? n) ∧
    (∀ c p, (∀ n, ¬(h.tree.entry c).GivesRoot p n) →
      (∀ n, h.tree.rootOf? p = some n → ¬(h.tree.entry c).Takes p n) →
      (h.tree.change c).2.rootOf? p = h.tree.rootOf? p) := by
  intro h
  have now : h.made < UInt64.size := Nat.lt_of_lt_of_le few (Nat.sub_le ..)
  have faithful : h.IsFaithful := isFaithful_after now
  have new : IsNew h.log ⟨h.tree.next⟩ := isNew_next faithful few
  refine ⟨fun n p => faithful.owner, fun p n => faithful.root,
    fun p n => Tree.register_of_visible,
    ?_, ?_, ?_, ?_, ?_, fun more n p q few' => owner_unique (by omega), ?_, ?_⟩
  · intro p hidden
    rw [Tree.register_of_hidden hidden]
    exact new
  · intro p n answered
    cases visible : h.tree.rootOf? p with
    | some r =>
        rw [Tree.extend_of_visible visible] at answered
        exact Option.some.inj answered ▸ new
    | none =>
        rw [Tree.extend_of_hidden visible] at answered
        cases answered
  · intro p
    cases visible : h.tree.rootOf? p with
    | some r => simp [Tree.extend_of_visible visible]
    | none => simp [Tree.extend_of_hidden visible]
  · intro p hidden
    rw [Tree.extend_of_hidden hidden]
  · intro more n few' answered stale
    rw [after_append] at few' ⊢
    exact ownerOf?_eq_none_foldl faithful (by omega) answered stale
  · intro c n apart spared
    exact Tree.ownerOf?_change_of_untouched faithful.sound
      (ownerOf?_next faithful now) apart spared
  · intro c p apart spared
    exact Tree.rootOf?_change_of_untouched faithful.sound apart spared

/-- A process whose root is discarded, which is registered anew, terminated, and
registered again. -/
def rebirth : List Change :=
  [.register 7, .extend 7, .discard ⟨1⟩, .register 7, .terminate 7, .register 7]

/-- After the rebirth of a process its fourth node is its root and its first three
are gone for good. -/
theorem look_ups_tell_the_log_rebirth :
    (after rebirth).made < UInt64.size - 1 ∧
      (after rebirth).log.map Entry.answer =
        [some ⟨1⟩, some ⟨2⟩, none, some ⟨3⟩, none, some ⟨4⟩] ∧
      Stands (Entry.GivesRoot 7 ⟨4⟩) (Entry.Takes 7 ⟨4⟩) (after rebirth).log ∧
      ∀ more, (after (rebirth ++ more)).made < UInt64.size - 1 →
        ∀ n ∈ [(⟨1⟩ : Node), ⟨2⟩, ⟨3⟩],
        (after (rebirth ++ more)).tree.ownerOf? n = none := by
  have few : (after rebirth).made < UInt64.size - 1 := by decide
  obtain ⟨-, root, -, -, -, -, -, stale, -⟩ := look_ups_tell_the_log rebirth few
  refine ⟨few, by decide, (root 7 ⟨4⟩).mp (by decide), ?_⟩
  intro more few' n listed
  refine stale more n few' ?_ ?_
  · have answered : ∀ n ∈ [(⟨1⟩ : Node), ⟨2⟩, ⟨3⟩],
        ∃ e ∈ (after rebirth).log, e.answer = some n := by
      decide
    exact answered n listed
  · have gone : ∀ n ∈ [(⟨1⟩ : Node), ⟨2⟩, ⟨3⟩], (after rebirth).tree.ownerOf? n =
        none := by decide
    exact gone n listed

end Chronicle

end ElementAgent

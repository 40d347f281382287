import ElementAgent.Element.Tree
import ElementAgent.Proofs.Keyed

/-!
# Changes of a tree

The four ways a tree changes, each with the node that it answers, and what an
answered change gives and takes. Main statements: after a change a node has an
owner, and a process a root, iff the change gives it or it was there and the
change does not take it (`ownerOf?_change_eq_some_iff`,
`rootOf?_change_eq_some_iff`).
-/

namespace ElementAgent.Tree

/-- What can be asked of a tree. -/
inductive Change where
  | register (p : Pid)
  | extend (p : Pid)
  | discard (n : Node)
  | terminate (p : Pid)
  deriving DecidableEq

/-- The node that a change answers, and the tree after it. -/
def change (t : Tree) : Change → Option Node × Tree
  | .register p => let (n, t) := t.register p; (some n, t)
  | .extend p => t.extend p
  | .discard n => (none, t.discard n)
  | .terminate p => (none, t.terminate p)

/-- The change makes a node. -/
def makes (t : Tree) : Change → Bool
  | .register p => (t.rootOf? p).isNone
  | .extend p => (t.rootOf? p).isSome
  | .discard _ => false
  | .terminate _ => false

/-- A change and what it answered. -/
structure Entry where
  change : Change
  answer : Option Node
  deriving DecidableEq

/-- The entry that a change of the tree makes. -/
def entry (t : Tree) (c : Change) : Entry := ⟨c, (t.change c).1⟩

namespace Entry

/-- The node was answered as one of the process. -/
def Gives (p : Pid) (n : Node) (e : Entry) : Prop :=
  (e.change = .register p ∨ e.change = .extend p) ∧ e.answer = some n

/-- The node was answered as the root of the process. -/
def GivesRoot (p : Pid) (n : Node) (e : Entry) : Prop :=
  e.change = .register p ∧ e.answer = some n

/-- The change does away with the node, or with the process and all its nodes. -/
def Takes (p : Pid) (n : Node) (e : Entry) : Prop :=
  e.change = .discard n ∨ e.change = .terminate p

instance (p : Pid) (n : Node) (e : Entry) : Decidable (e.Gives p n) :=
  inferInstanceAs (Decidable (_ ∧ _))

instance (p : Pid) (n : Node) (e : Entry) : Decidable (e.GivesRoot p n) :=
  inferInstanceAs (Decidable (_ ∧ _))

instance (p : Pid) (n : Node) (e : Entry) : Decidable (e.Takes p n) :=
  inferInstanceAs (Decidable (_ ∨ _))

/-- A change gives its node to one process. -/
theorem Gives.pid_unique {e : Entry} {p q : Pid} {n : Node} (given : e.Gives p n)
    (given' : e.Gives q n) : p = q := by
  rcases given.1 with asked | asked <;> rcases given'.1 with asked' | asked' <;>
    rw [asked] at asked' <;> cases asked' <;> rfl

end Entry

/-- Nodes and processes are listed once, and the root of a process
is a node of it. -/
structure IsSound (t : Tree) : Prop where
  owners : (t.owners.map Prod.fst).Nodup
  roots : (t.roots.map Prod.fst).Nodup
  rooted : ∀ {p n}, t.rootOf? p = some n → t.ownerOf? n = some p

variable {t : Tree} {c : Change} {p q : Pid} {n m : Node}

/-! ## The parts of a change -/

theorem register_of_visible (visible : t.rootOf? p = some n) :
    t.register p = (n, t) := by
  simp [register, visible]

theorem register_of_hidden (hidden : t.rootOf? p = none) :
    t.register p =
      (⟨t.next⟩, { (t.allocate p).2 with roots := (p, ⟨t.next⟩) :: t.roots }) := by
  simp [register, hidden, allocate]

theorem extend_of_visible (visible : t.rootOf? p = some n) :
    t.extend p = (some ⟨t.next⟩, (t.allocate p).2) := by
  simp [extend, visible, allocate]

theorem extend_of_hidden (hidden : t.rootOf? p = none) :
    t.extend p = (none, t) := by
  simp [extend, hidden]

theorem nodup_owners_allocate (sound : t.IsSound) :
    ((t.allocate p).2.owners.map Prod.fst).Nodup := by
  have absent : (⟨t.next⟩ : Node) ∉
      (t.owners.filter (·.1 ≠ ⟨t.next⟩)).map Prod.fst := by
    simp
  exact List.nodup_cons.mpr ⟨absent, Keyed.nodup_filter _ sound.owners⟩

/-- A node whose number is free is a node more. -/
theorem ownerOf?_allocate_eq_some_iff (sound : t.IsSound)
    (free : t.ownerOf? ⟨t.next⟩ = none) :
    (t.allocate p).2.ownerOf? n = some q ↔
      (p = q ∧ (⟨t.next⟩ : Node) = n) ∨ t.ownerOf? n = some q := by
  by_cases new : n = ⟨t.next⟩
  · subst new
    simp [ownerOf?, allocate, show t.owners.lookup ⟨t.next⟩ = none from free]
  · have missed : (n == (⟨t.next⟩ : Node)) = false := by simpa using new
    simp only [ownerOf?, allocate, List.lookup_cons, missed,
      Keyed.lookup_filter_eq_some_iff (·.1 ≠ (⟨t.next⟩ : Node)) sound.owners]
    simp [new, Ne.symm new]

theorem ownerOf?_discard_eq_some_iff (sound : t.IsSound) :
    (t.discard m).ownerOf? n = some q ↔ t.ownerOf? n = some q ∧ n ≠ m :=
  Keyed.lookup_filter_eq_some_iff (·.1 ≠ m) sound.owners

theorem rootOf?_discard_eq_some_iff (sound : t.IsSound) :
    (t.discard m).rootOf? q = some n ↔ t.rootOf? q = some n ∧ n ≠ m :=
  Keyed.lookup_filter_eq_some_iff (·.2 ≠ m) sound.roots

theorem ownerOf?_terminate_eq_some_iff (sound : t.IsSound) :
    (t.terminate p).ownerOf? n = some q ↔ t.ownerOf? n = some q ∧ q ≠ p :=
  Keyed.lookup_filter_eq_some_iff (·.2 ≠ p) sound.owners

theorem rootOf?_terminate_eq_some_iff (sound : t.IsSound) :
    (t.terminate p).rootOf? q = some n ↔ t.rootOf? q = some n ∧ q ≠ p :=
  Keyed.lookup_filter_eq_some_iff (·.1 ≠ p) sound.roots

/-! ## One change -/

/-- After a change a node has the owner that it is given to, or had and is
not taken from. -/
theorem ownerOf?_change_eq_some_iff (sound : t.IsSound)
    (free : t.ownerOf? ⟨t.next⟩ = none) :
    (t.change c).2.ownerOf? n = some q ↔
      (t.entry c).Gives q n ∨ t.ownerOf? n = some q ∧ ¬(t.entry c).Takes q n := by
  cases c with
  | register p =>
      cases visible : t.rootOf? p with
      | some r =>
          have owned := sound.rooted visible
          simp only [change, entry, register_of_visible visible, Entry.Gives,
            Entry.Takes]
          constructor
          · intro h
            exact .inr ⟨h, by simp⟩
          · rintro (⟨same | same, answered⟩ | ⟨h, -⟩)
            · cases same
              cases answered
              exact owned
            · cases same
            · exact h
      | none =>
          simp only [change, entry, register_of_hidden visible, Entry.Gives,
            Entry.Takes]
          show (t.allocate p).2.ownerOf? n = some q ↔ _
          rw [ownerOf?_allocate_eq_some_iff sound free]
          simp
  | extend p =>
      cases visible : t.rootOf? p with
      | some r =>
          simp only [change, entry, extend_of_visible visible, Entry.Gives,
            Entry.Takes]
          rw [ownerOf?_allocate_eq_some_iff sound free]
          simp
      | none =>
          simp [change, entry, extend_of_hidden visible, Entry.Gives, Entry.Takes]
  | discard m =>
      simp only [change, entry, Entry.Gives, Entry.Takes,
        ownerOf?_discard_eq_some_iff sound]
      simp [eq_comm]
  | terminate p =>
      simp only [change, entry, Entry.Gives, Entry.Takes,
        ownerOf?_terminate_eq_some_iff sound]
      simp [eq_comm]

/-- After a change a process has the root that it is given, or had and is not
deprived of. -/
theorem rootOf?_change_eq_some_iff (sound : t.IsSound) :
    (t.change c).2.rootOf? q = some n ↔
      (t.entry c).GivesRoot q n ∨ t.rootOf? q = some n ∧
      ¬(t.entry c).Takes q n := by
  cases c with
  | register p =>
      cases visible : t.rootOf? p with
      | some r =>
          simp only [change, entry, register_of_visible visible, Entry.GivesRoot,
            Entry.Takes]
          constructor
          · intro h
            exact .inr ⟨h, by simp⟩
          · rintro (⟨same, answered⟩ | ⟨h, -⟩)
            · cases same
              cases answered
              exact visible
            · exact h
      | none =>
          simp only [change, entry, register_of_hidden visible, Entry.GivesRoot,
            Entry.Takes]
          by_cases same : q = p
          · subst same
            simp [rootOf?, show t.roots.lookup q = none from visible]
          · have missed : (q == p) = false := by simpa using same
            simp [rootOf?, List.lookup_cons, missed, Ne.symm same]
  | extend p =>
      cases visible : t.rootOf? p with
      | some r =>
          simp only [change, entry, extend_of_visible visible, Entry.GivesRoot,
            Entry.Takes]
          show t.rootOf? q = some n ↔ _
          simp
      | none =>
          simp [change, entry, extend_of_hidden visible, Entry.GivesRoot,
            Entry.Takes]
  | discard m =>
      simp only [change, entry, Entry.GivesRoot, Entry.Takes,
        rootOf?_discard_eq_some_iff sound]
      simp [eq_comm]
  | terminate p =>
      simp only [change, entry, Entry.GivesRoot, Entry.Takes,
        rootOf?_terminate_eq_some_iff sound]
      simp [eq_comm]

/-- A node that a change neither gives nor takes keeps its owner. -/
theorem ownerOf?_change_of_untouched (sound : t.IsSound)
    (free : t.ownerOf? ⟨t.next⟩ = none) (apart : ∀ q, ¬(t.entry c).Gives q n)
    (spared : ∀ q, t.ownerOf? n = some q → ¬(t.entry c).Takes q n) :
    (t.change c).2.ownerOf? n = t.ownerOf? n := by
  apply Option.ext
  intro q
  rw [ownerOf?_change_eq_some_iff sound free]
  constructor
  · rintro (given | ⟨had, -⟩)
    · exact absurd given (apart q)
    · exact had
  · intro had
    exact .inr ⟨had, spared q had⟩

/-- A process whose root a change neither gives nor takes keeps its root. -/
theorem rootOf?_change_of_untouched (sound : t.IsSound)
    (apart : ∀ n, ¬(t.entry c).GivesRoot q n)
    (spared : ∀ n, t.rootOf? q = some n → ¬(t.entry c).Takes q n) :
    (t.change c).2.rootOf? q = t.rootOf? q := by
  apply Option.ext
  intro n
  rw [rootOf?_change_eq_some_iff sound]
  constructor
  · rintro (given | ⟨had, -⟩)
    · exact absurd given (apart n)
    · exact had
  · intro had
    exact .inr ⟨had, spared n had⟩

/-- A change makes the node of the next number, or makes none and answers
at most a root. -/
theorem makes_cases (t : Tree) (c : Change) :
    t.makes c = true ∧ (t.change c).1 = some ⟨t.next⟩ ∧
        (t.change c).2.next = t.next + 1 ∨
      t.makes c = false ∧ (t.change c).2.next = t.next ∧
        ∀ n, (t.change c).1 = some n →
          ∃ p, c = .register p ∧ t.rootOf? p = some n := by
  cases c with
  | register p =>
      cases visible : t.rootOf? p with
      | some r =>
          exact .inr (by simp [makes, change, visible, register_of_visible visible])
      | none =>
          exact .inl
            (by simp [makes, change, visible, register_of_hidden visible, allocate])
  | extend p =>
      cases visible : t.rootOf? p with
      | some r =>
          exact .inl
            (by simp [makes, change, visible, extend_of_visible visible, allocate])
      | none =>
          exact .inr (by simp [makes, change, visible, extend_of_hidden visible])
  | discard m => exact .inr ⟨rfl, rfl, by simp [change]⟩
  | terminate p => exact .inr ⟨rfl, rfl, by simp [change]⟩

/-- A change leaves a tree sound, if the next number is free. -/
theorem IsSound.change (sound : t.IsSound) (free : t.ownerOf? ⟨t.next⟩ = none) :
    (t.change c).2.IsSound where
  owners := by
    cases c with
    | register p =>
        cases visible : t.rootOf? p with
        | some r =>
            simpa [Tree.change, register_of_visible visible] using sound.owners
        | none =>
            simpa [Tree.change, register_of_hidden visible]
              using nodup_owners_allocate sound
    | extend p =>
        cases visible : t.rootOf? p with
        | some r =>
            simpa [Tree.change, extend_of_visible visible]
              using nodup_owners_allocate sound
        | none => simpa [Tree.change, extend_of_hidden visible] using sound.owners
    | discard m => exact Keyed.nodup_filter _ sound.owners
    | terminate p => exact Keyed.nodup_filter _ sound.owners
  roots := by
    cases c with
    | register p =>
        cases visible : t.rootOf? p with
        | some r =>
            simpa [Tree.change, register_of_visible visible] using sound.roots
        | none =>
            have absent : p ∉ t.roots.map Prod.fst := by
              intro listed
              obtain ⟨e, he, same⟩ := List.mem_map.mp listed
              have missed := List.lookup_eq_none_iff.mp visible e he
              simp [same] at missed
            simp only [Tree.change, register_of_hidden visible]
            exact List.nodup_cons.mpr ⟨absent, sound.roots⟩
    | extend p =>
        cases visible : t.rootOf? p with
        | some r =>
            simp only [Tree.change, extend_of_visible visible]
            exact sound.roots
        | none => simpa [Tree.change, extend_of_hidden visible] using sound.roots
    | discard m => exact Keyed.nodup_filter _ sound.roots
    | terminate p => exact Keyed.nodup_filter _ sound.roots
  rooted := by
    intro p n h
    rw [ownerOf?_change_eq_some_iff sound free]
    rcases (rootOf?_change_eq_some_iff sound).mp h with given | ⟨had, kept⟩
    · exact .inl ⟨.inl given.1, given.2⟩
    · exact .inr ⟨sound.rooted had, kept⟩

/-! ## The processes of a tree -/

/-- A node of the process, or its root, is listed. -/
def Knows (t : Tree) (p : Pid) : Prop :=
  (∃ n, (n, p) ∈ t.owners) ∨ ∃ n, (p, n) ∈ t.roots

theorem knows_of_ownerOf? (owned : t.ownerOf? n = some p) : t.Knows p :=
  .inl ⟨n, Keyed.mem_of_lookup_eq_some owned⟩

theorem knows_of_rootOf? (visible : t.rootOf? p = some n) : t.Knows p :=
  .inr ⟨n, Keyed.mem_of_lookup_eq_some visible⟩

theorem Knows.of_allocate (knows : (t.allocate q).2.Knows p) :
    p = q ∨ t.Knows p := by
  rcases knows with ⟨n, listed⟩ | visible
  · rcases List.mem_cons.mp listed with same | old
    · cases same
      exact .inl rfl
    · exact .inr (.inl ⟨n, (List.mem_filter.mp old).1⟩)
  · exact .inr (.inr visible)

/-- A tree comes to know a process by registering it and by nothing else. -/
theorem Knows.of_change (knows : (t.change c).2.Knows p) :
    c = .register p ∨ t.Knows p := by
  cases c with
  | register q =>
      cases visible : t.rootOf? q with
      | some r =>
          simp only [change, register_of_visible visible] at knows
          exact .inr knows
      | none =>
          simp only [change, register_of_hidden visible] at knows
          have made : p = q ∨ t.Knows p := by
            rcases knows with owner | ⟨n, listed⟩
            · exact Knows.of_allocate (.inl owner)
            · rcases List.mem_cons.mp listed with same | old
              · cases same
                exact .inl rfl
              · exact .inr (.inr ⟨n, old⟩)
          rcases made with rfl | known
          · exact .inl rfl
          · exact .inr known
  | extend q =>
      cases visible : t.rootOf? q with
      | some r =>
          simp only [change, extend_of_visible visible] at knows
          rcases knows.of_allocate with rfl | known
          · exact .inr (knows_of_rootOf? visible)
          · exact .inr known
      | none =>
          simp only [change, extend_of_hidden visible] at knows
          exact .inr knows
  | discard m =>
      rcases knows with ⟨n, listed⟩ | ⟨n, listed⟩
      · exact .inr (.inl ⟨n, (List.mem_filter.mp listed).1⟩)
      · exact .inr (.inr ⟨n, (List.mem_filter.mp listed).1⟩)
  | terminate q =>
      rcases knows with ⟨n, listed⟩ | ⟨n, listed⟩
      · exact .inr (.inl ⟨n, (List.mem_filter.mp listed).1⟩)
      · exact .inr (.inr ⟨n, (List.mem_filter.mp listed).1⟩)

end ElementAgent.Tree

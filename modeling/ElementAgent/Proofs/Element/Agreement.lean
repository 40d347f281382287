import ElementAgent.Proofs.Element.Chronicle
import ElementAgent.Proofs.Element.Scene

/-!
# Two ways to an element

An element is named by its process or by its node, and each way reads a table of
its own. Main statement (`ways_agree`): on every desktop the element of a process
is found again by its node, no other process has that node for its root, and it is
not the whole screen's; a node is refused just if nobody owns it, and the node of
the whole screen always is. The tables agree as long as no number has been given
twice; when all numbers have been given, the next node is the whole screen's
(`screen_taken_by_process`).
-/

namespace ElementAgent

open ElementAgent.Tree (Change Entry)

/-! ## Desktops -/

namespace Desktop

variable {d : Desktop} {n : Node} {p : Pid} {e : Element}

theorem elementOfPid_eq_ok_iff :
    d.elementOfPid p = .ok e ↔
    ∃ n, d.tree.rootOf? p = some n ∧ e = .native p n false := by
  unfold elementOfPid
  cases visible : d.tree.rootOf? p with
  | none => simp
  | some n => simp [eq_comm]

theorem elementOfNode_of_owner (owned : d.tree.ownerOf? n = some p) :
    d.elementOfNode n = .ok (.native p n false) := by simp [elementOfNode, owned]

/-- A node is refused just if it has no owner. -/
theorem elementOfNode_eq_error_iff {f : Element.Fault} :
    d.elementOfNode n = .error f ↔ d.tree.ownerOf? n = none ∧ f = .unowned n := by
  unfold elementOfNode
  cases owned : d.tree.ownerOf? n with
  | none => simp [eq_comm]
  | some p => simp

end Desktop

/-! ## Scenes -/

namespace Scene

variable {screenAt : Nat → Node} {s t : Scene} {es : List Event} {e : Event}

/-- The changes of the tree among the events. -/
def changes (es : List Event) : List Change :=
  es.filterMap fun
    | .change c => some c
    | _ => none

@[simp] theorem keep_desktop (found : Except Element.Fault Element) :
    (s.keep found).desktop = s.desktop := by
  cases found <;> rfl

/-- Answering for the whole screen leaves the tree alone. -/
theorem deviceRoot_tree (m : Namer) (d : Desktop) :
    (m.deviceRoot d).2.2.tree = d.tree := by
  unfold Namer.deviceRoot
  split <;> rfl

/-- The tree of a scene has the history of its changes. -/
theorem tree_of_run (run : es.foldlM step? (fresh screenAt) = some s) :
    s.desktop.tree = (Chronicle.after (changes es)).tree := by
  refine Run.induct (P := fun es s =>
    s.desktop.tree = (Chronicle.after (changes es)).tree) rfl ?_ run
  intro es s e t _ same step
  rw [changes, List.filterMap_append, Chronicle.after_append]
  cases e with
  | change c =>
      cases step
      show (s.desktop.tree.change c).2 = _
      rw [same]
      rfl
  | arrive =>
      cases step
      exact same
  | ofNode i n | ofPid i p =>
      obtain ⟨m, -, rfl⟩ := Option.map_eq_some_iff.mp step
      rw [keep_desktop]
      exact same
  | deviceRoot i =>
      obtain ⟨m, -, rfl⟩ := Option.map_eq_some_iff.mp step
      exact (deviceRoot_tree m s.desktop).trans same

/-- The two ways to an element agree on every desktop that has come about. A node
is refused, by its name, just if no process owns it, and no namer takes the
element of a process for the whole screen's. As long as no number has been given
twice, the element of a process is found again by its node, two processes do not
share a root, a node is refused just if it has not been given or something has
taken it since, and the node of the whole screen is refused. -/
theorem ways_agree (run : es.foldlM step? (fresh screenAt) = some s) :
    (∀ n, s.desktop.elementOfNode n = .error (.unowned n) ↔
      ∀ p, (n, p) ∉ s.desktop.tree.owners) ∧
    (∀ n f, s.desktop.elementOfNode n = .error f → f = .unowned n) ∧
    (∀ p e, s.desktop.elementOfPid p = .ok e →
      ∀ m ∈ s.namers, (m.deviceRoot s.desktop).1 ≠ e) ∧
    ((Chronicle.after (changes es)).made < UInt64.size →
      (∀ p e, s.desktop.elementOfPid p = .ok e →
        ∃ n, e.node = .ok n ∧ s.desktop.elementOfNode n = .ok e) ∧
      (∀ p q e f, s.desktop.elementOfPid p = .ok e →
        s.desktop.elementOfPid q = .ok f →
        e.node = f.node → p = q) ∧
      (∀ n, s.desktop.elementOfNode n = .error (.unowned n) ↔ ∀ p,
        ¬Chronicle.Stands (Entry.Gives p n) (Entry.Takes p n)
          (Chronicle.after (changes es)).log) ∧
      s.desktop.elementOfNode Tree.screen = .error (.unowned Tree.screen)) := by
  have orderly := isOrderly_of_run run
  refine ⟨fun n => ?_, fun n f refused =>
    (Desktop.elementOfNode_eq_error_iff.mp refused).2, ?_, fun few => ?_⟩
  · rw [Desktop.elementOfNode_eq_error_iff, Tree.ownerOf?, List.lookup_eq_none_iff]
    constructor
    · rintro ⟨apart, -⟩ p listed
      simpa using apart (n, p) listed
    · intro unlisted
      refine ⟨fun entry listed => bne_iff_ne.mpr fun same => ?_, rfl⟩
      exact unlisted entry.2 (same ▸ listed)
  · intro p e found m there same
    obtain ⟨n, -, rfl⟩ := Desktop.elementOfPid_eq_ok_iff.mp found
    obtain ⟨⟨n', root⟩, -⟩ :=
      deviceRoot_spec (d := s.desktop) (orderly.kept m there)
    cases root.symm.trans same
  · have faithful := Chronicle.isFaithful_after few
    have tree := tree_of_run run
    have rooted {p : Pid} {n : Node} (visible : s.desktop.tree.rootOf? p = some n) :
        s.desktop.tree.ownerOf? n = some p := by
      rw [tree] at visible ⊢
      exact faithful.sound.rooted visible
    refine ⟨fun p e found => ?_, fun p q e f found found' same => ?_,
      fun n => ?_, ?_⟩
    · obtain ⟨n, visible, rfl⟩ := Desktop.elementOfPid_eq_ok_iff.mp found
      exact ⟨n, rfl, Desktop.elementOfNode_of_owner (rooted visible)⟩
    · obtain ⟨n, visible, rfl⟩ := Desktop.elementOfPid_eq_ok_iff.mp found
      obtain ⟨m, visible', rfl⟩ := Desktop.elementOfPid_eq_ok_iff.mp found'
      cases same
      exact Option.some.inj ((rooted visible).symm.trans (rooted visible'))
    · rw [Desktop.elementOfNode_eq_error_iff, tree,
        Option.eq_none_iff_forall_ne_some]
      simp only [and_true, ne_eq, faithful.owner]
    · refine Desktop.elementOfNode_eq_error_iff.mpr ⟨?_, rfl⟩
      rw [tree]
      exact faithful.ownerOf?_screen

/-- A process whose root has been discarded comes back with another, and so does
one that has ended. -/
def rehoused : List Event :=
  [.arrive, .deviceRoot 0, .change (.register 7), .change (.extend 7),
    .change (.discard ⟨1⟩), .change (.register 7), .change (.register 9),
    .change (.terminate 9), .change (.register 9)]

/-- Each of the two is found by its new root, and its old root is nobody's. -/
theorem ways_agree_rehoused :
    ∃ s, rehoused.foldlM step? (fresh fun _ => Tree.screen) = some s ∧
      s.desktop.elementOfPid 7 = .ok (.native 7 ⟨3⟩ false) ∧
      s.desktop.elementOfNode ⟨3⟩ = .ok (.native 7 ⟨3⟩ false) ∧
      s.desktop.elementOfPid 9 = .ok (.native 9 ⟨5⟩ false) ∧
      s.desktop.elementOfNode ⟨5⟩ = .ok (.native 9 ⟨5⟩ false) ∧
      (∀ p, (⟨1⟩, p) ∉ s.desktop.tree.owners) ∧
      (∀ p, (⟨4⟩, p) ∉ s.desktop.tree.owners) ∧
      s.desktop.elementOfNode Tree.screen = .error (.unowned Tree.screen) := by
  have ran : ∃ s, rehoused.foldlM step? (fresh fun _ => Tree.screen) = some s ∧
      s.desktop.elementOfPid 7 = .ok (.native 7 ⟨3⟩ false) ∧
      s.desktop.elementOfPid 9 = .ok (.native 9 ⟨5⟩ false) ∧
      s.desktop.elementOfNode ⟨1⟩ = .error (.unowned ⟨1⟩) ∧
      s.desktop.elementOfNode ⟨4⟩ = .error (.unowned ⟨4⟩) :=
    ⟨_, rfl, rfl, rfl, rfl, rfl⟩
  obtain ⟨s, run, seven, nine, first, fourth⟩ := ran
  obtain ⟨refused, -, -, agree⟩ := ways_agree run
  obtain ⟨again, -, -, screen⟩ := agree (by decide)
  obtain ⟨n, node, seven'⟩ := again 7 _ seven
  obtain ⟨m, node', nine'⟩ := again 9 _ nine
  cases node
  cases node'
  exact ⟨s, run, seven, seven', nine, nine', (refused _).mp first,
    (refused _).mp fourth, screen⟩

/-- A visible process may be given any number of nodes. -/
theorem extend_of_visible {n : Node} {p : Pid}
    (visible : s.desktop.tree.rootOf? p = some n) (count : Nat) :
    ∃ t, (List.replicate count (.change (.extend p))).foldlM step? s = some t ∧
      t.desktop.tree.rootOf? p = some n ∧
      t.desktop.tree.next = s.desktop.tree.next + UInt64.ofNat count := by
  induction count with
  | zero => exact ⟨s, rfl, visible, (UInt64.add_zero _).symm⟩
  | succ count ih =>
      obtain ⟨t, run, visible, next⟩ := ih
      have step : t.step? (.change (.extend p)) = some { t with
          desktop :=
            { t.desktop with tree := (t.desktop.tree.allocate p).2 } } := by
        simp [step?, Tree.change, Tree.extend_of_visible visible]
      rw [List.replicate_succ']
      refine ⟨_, Run.concat run step, visible, ?_⟩
      show t.desktop.tree.next + 1 = _
      rw [next, UInt64.add_assoc, UInt64.ofNat_add]
      rfl

/-- The only process of a desktop may be given the node of the whole screen, if
its number comes round. -/
theorem screen_given (p : Pid) {count : Nat} (round : 2 + UInt64.ofNat count = 0) :
    ∃ s, (.change (.register p) ::
      List.replicate (count + 1) (.change (.extend p))).foldlM step?
        (fresh screenAt) = some s ∧
      s.desktop.elementOfNode Tree.screen = .ok (.native p Tree.screen false) := by
  let first : Scene := ⟨⟨(Tree.empty.register p).2, screenAt, 0⟩, [], []⟩
  have visible : first.desktop.tree.rootOf? p = some ⟨1⟩ := by
    show (Tree.empty.register p).2.rootOf? p = some ⟨1⟩
    rw [Tree.register_of_hidden rfl]
    exact List.lookup_cons_self
  obtain ⟨t, run, visible, next⟩ := extend_of_visible visible count
  have screen : t.desktop.tree.next = 0 := next.trans round
  have last : t.step? (.change (.extend p)) = some { t with
      desktop := { t.desktop with tree := (t.desktop.tree.allocate p).2 } } := by
    simp [step?, Tree.change, Tree.extend_of_visible visible]
  have begins : [Event.change (.register p)].foldlM step? (fresh screenAt) =
      some first := rfl
  rw [List.replicate_succ', ← List.singleton_append]
  refine ⟨_, Run.append begins (Run.concat run last),
    Desktop.elementOfNode_of_owner ?_⟩
  simp [Tree.ownerOf?, Tree.allocate, screen, Tree.screen]

/-- When 2^64 nodes have been given, the last one was the node of the whole
screen, which is not refused then. Nor is a node that a desktop names its screen
by, if its tree gives it to a process. -/
theorem screen_taken_by_process :
    (∃ s, (.change (.register 7) ::
      List.replicate (UInt64.size - 1) (.change (.extend 7))).foldlM step?
        (fresh fun _ => Tree.screen) = some s ∧
      s.desktop.elementOfNode Tree.screen = .ok (.native 7 Tree.screen false)) ∧
    (∃ s, [.change (.register 7)].foldlM step? (fresh fun _ => ⟨1⟩) = some s ∧
      s.desktop.elementOfNode (s.desktop.screenAt 0) = .ok (.native 7 ⟨1⟩ false)) :=
  ⟨screen_given 7 (by decide), _, rfl, rfl⟩

end Scene

end ElementAgent

import ElementAgent.Element.Namer
import ElementAgent.Proofs.Element.Changes
import ElementAgent.Proofs.Run

/-!
# Namers at work

A desktop whose tree changes, the namers that share it, and all the elements that
they build on the way. Main statement (`systemPid_apart_until_registered`): the
system's pid tells the whole screen from all other elements as long as no process
is registered under it. A tree registers it like any other pid.
-/

namespace ElementAgent

/-- A desktop, its namers in the order of their arrival, and the native elements
they have built. -/
structure Scene where
  desktop : Desktop
  namers : List Namer
  built : List Element

namespace Scene

/-- What happens on a desktop. -/
inductive Event where
  | change (c : Tree.Change)
  /-- A new namer arrives. -/
  | arrive
  /-- A namer is asked for the element of a node. -/
  | ofNode (namer : Nat) (n : Node)
  /-- A namer is asked for the element of a process. -/
  | ofPid (namer : Nat) (p : Pid)
  /-- A namer is asked for the element of the whole screen. -/
  | deviceRoot (namer : Nat)
  deriving DecidableEq

/-- Keeps what a namer has built, if it could build anything. -/
def keep (s : Scene) : Except Element.Fault Element → Scene
  | .ok e => { s with built := s.built ++ [e] }
  | .error _ => s

/-- One event, if the namer that it asks is there. -/
def step? (s : Scene) : Event → Option Scene
  | .change c =>
      some { s with
        desktop := { s.desktop with tree := (s.desktop.tree.change c).2 } }
  | .arrive => some { s with namers := s.namers ++ [.fresh] }
  | .ofNode i n => s.namers[i]?.map fun _ => s.keep (s.desktop.elementOfNode n)
  | .ofPid i p => s.namers[i]?.map fun _ => s.keep (s.desktop.elementOfPid p)
  | .deviceRoot i => s.namers[i]?.map fun m =>
    let (e, m, d) := m.deviceRoot s.desktop
    ⟨d, s.namers.set i m, s.built ++ [e]⟩

/-- A desktop without processes, which names its screen by the nodes
given, and no namers. -/
def fresh (screenAt : Nat → Node) : Scene := ⟨⟨.empty, screenAt, 0⟩, [], []⟩

variable {screenAt : Nat → Node} {s t : Scene} {es : List Event}
  {e : Event} {p : Pid}

/-- The elements that can have been built by a run: of the whole screen, and of
registered processes. -/
def IsDue (es : List Event) (x : Element) : Prop :=
  (∃ n, x = .native systemPid n true) ∨
  ∃ p n, x = .native p n false ∧ .change (.register p) ∈ es

/-- Nobody speaks of a process that was not registered. -/
structure IsOrderly (es : List Event) (s : Scene) : Prop where
  known : ∀ {p}, s.desktop.tree.Knows p → .change (.register p) ∈ es
  kept : ∀ m ∈ s.namers, ∀ x, m.kept = some x → ∃ n, x = .native systemPid n true
  built : ∀ x ∈ s.built, IsDue es x

theorem IsDue.concat {x : Element} (due : IsDue es x) (e : Event) :
    IsDue (es ++ [e]) x := by
  rcases due with root | ⟨p, n, same, registered⟩
  · exact .inl root
  · exact .inr ⟨p, n, same, List.mem_append_left _ registered⟩

/-- An element of a process can be built where the tree knows the process. -/
theorem isDue_of_elementOfNode {n : Node} {x : Element} (orderly : IsOrderly es s)
    (found : s.desktop.elementOfNode n = .ok x) : IsDue es x := by
  unfold Desktop.elementOfNode at found
  split at found
  case h_1 p owned =>
    cases found
    exact .inr ⟨p, n, rfl, orderly.known (Tree.knows_of_ownerOf? owned)⟩
  case h_2 => cases found

theorem isDue_of_elementOfPid {x : Element} (orderly : IsOrderly es s)
    (found : s.desktop.elementOfPid p = .ok x) : IsDue es x := by
  unfold Desktop.elementOfPid at found
  split at found
  case h_1 n visible =>
    cases found
    exact .inr ⟨p, n, rfl, orderly.known (Tree.knows_of_rootOf? visible)⟩
  case h_2 => cases found

/-- A namer that answers for the whole screen names its pid, and
keeps that element. -/
theorem deviceRoot_spec {m : Namer} {d : Desktop}
    (kept : ∀ x, m.kept = some x → ∃ n, x = .native systemPid n true) :
    (∃ n, (m.deviceRoot d).1 = .native systemPid n true) ∧
      (m.deviceRoot d).2.1.kept = some (m.deviceRoot d).1 ∧
      (m.deviceRoot d).2.2.tree = d.tree := by
  unfold Namer.deviceRoot
  split
  case h_1 x known => exact ⟨kept x known, known, rfl⟩
  case h_2 => exact ⟨⟨_, rfl⟩, rfl, rfl⟩

theorem isOrderly_keep {found : Except Element.Fault Element}
    (orderly : IsOrderly es s)
    (due : ∀ x, found = .ok x → IsDue es x) : IsOrderly es (s.keep found) := by
  cases found with
  | error f => exact orderly
  | ok x =>
      refine ⟨orderly.known, orderly.kept, ?_⟩
      intro y hy
      rcases List.mem_append.mp hy with old | new
      · exact orderly.built y old
      · rw [List.mem_singleton.mp new]
        exact due x rfl

/-- An event that leaves everything orderly is one event more. -/
theorem IsOrderly.concat (orderly : IsOrderly es s) (e : Event) :
    IsOrderly (es ++ [e]) s where
  known := fun knows => List.mem_append_left _ (orderly.known knows)
  kept := orderly.kept
  built := fun x hx => (orderly.built x hx).concat e

theorem isOrderly_step? (orderly : IsOrderly es s) (step : s.step? e = some t) :
    IsOrderly (es ++ [e]) t := by
  cases e with
  | change c =>
      cases step
      refine ⟨?_, orderly.kept, fun x hx => (orderly.built x hx).concat _⟩
      intro p knows
      rcases Tree.Knows.of_change knows with rfl | known
      · exact List.mem_append_right _ (List.mem_singleton.mpr rfl)
      · exact List.mem_append_left _ (orderly.known known)
  | arrive =>
      cases step
      refine ⟨(orderly.concat _).known, ?_, (orderly.concat _).built⟩
      intro m hm x kept
      rcases List.mem_append.mp hm with old | new
      · exact orderly.kept m old x kept
      · rw [List.mem_singleton.mp new] at kept
        cases kept
  | ofNode i n =>
      obtain ⟨m, -, rfl⟩ := Option.map_eq_some_iff.mp step
      exact (isOrderly_keep orderly fun x =>
        isDue_of_elementOfNode orderly).concat _
  | ofPid i p =>
      obtain ⟨m, -, rfl⟩ := Option.map_eq_some_iff.mp step
      exact (isOrderly_keep orderly fun x => isDue_of_elementOfPid orderly).concat _
  | deviceRoot i =>
      obtain ⟨m, there, rfl⟩ := Option.map_eq_some_iff.mp step
      obtain ⟨root, keeps, tree⟩ :=
        deviceRoot_spec (d := s.desktop)
          (orderly.kept m (List.mem_of_getElem? there))
      refine IsOrderly.concat ⟨?_, ?_, ?_⟩ _
      · intro p knows
        rw [tree] at knows
        exact orderly.known knows
      · intro m' hm' x kept
        rcases List.mem_or_eq_of_mem_set hm' with old | rfl
        · exact orderly.kept m' old x kept
        · exact Option.some.inj (keeps.symm.trans kept) ▸ root
      · intro x hx
        rcases List.mem_append.mp hx with old | new
        · exact orderly.built x old
        · exact .inl (List.mem_singleton.mp new ▸ root)

theorem isOrderly_of_run (run : es.foldlM step? (fresh screenAt) = some s) :
    IsOrderly es s := by
  refine Run.induct (P := IsOrderly) ?_ ?_ run
  · refine ⟨?_, ?_, ?_⟩
    · rintro p (⟨n, listed⟩ | ⟨n, listed⟩) <;> cases listed
    · intro m hm
      cases hm
    · intro x hx
      cases hx
  · intro es s e t _ orderly step
    exact isOrderly_step? orderly step

/-- A process that has just been registered has an element, and that is not the
whole screen's. -/
theorem elementOfPid_register (d : Desktop) (p : Pid) :
    ∃ n, { d with tree := (d.tree.change (.register p)).2 }.elementOfPid p =
      .ok (.native p n false) := by
  cases visible : d.tree.rootOf? p with
  | some n =>
      exact ⟨n, by
        simp [Desktop.elementOfPid, Tree.change,
          Tree.register_of_visible visible, visible]⟩
  | none =>
      exact ⟨⟨d.tree.next⟩, by
        simp [Desktop.elementOfPid, Tree.change, Tree.register_of_hidden visible,
          Tree.rootOf?]⟩

/-- Every element of the whole screen has the system's pid, and as long as that
pid has not been registered no other element has it. Nothing keeps it from being
registered, and as soon as it is every namer answers for it with an element that
is not the whole screen's. -/
theorem systemPid_apart_until_registered
    (run : es.foldlM step? (fresh screenAt) = some s) :
    (∀ x ∈ s.built, x.isDeviceRoot = true → x.pid = systemPid) ∧
    (.change (.register systemPid) ∉ es →
      ∀ x ∈ s.built, x.pid = systemPid ↔ x.isDeviceRoot = true) ∧
    (∀ i < s.namers.length, ∃ t n,
      [.change (.register systemPid), .ofPid i systemPid].foldlM step? s = some t ∧
        .native systemPid n false ∈ t.built) := by
  have orderly := isOrderly_of_run run
  refine ⟨?_, ?_, ?_⟩
  · intro x hx root
    rcases orderly.built x hx with ⟨n, rfl⟩ | ⟨p, n, rfl, -⟩
    · rfl
    · cases root
  · intro unregistered x hx
    rcases orderly.built x hx with ⟨n, rfl⟩ | ⟨p, n, rfl, registered⟩
    · exact iff_of_true rfl rfl
    · refine iff_of_false ?_ (by simp [Element.isDeviceRoot])
      intro same
      have same : p = systemPid := same
      exact unregistered (same ▸ registered)
  · intro i there
    obtain ⟨n, found⟩ := elementOfPid_register s.desktop systemPid
    have asked : s.namers[i]? = some s.namers[i] := List.getElem?_eq_getElem there
    let r : Scene := { s with
      desktop :=
        { s.desktop with tree := (s.desktop.tree.change (.register systemPid)).2 } }
    refine ⟨r.keep (.ok (.native systemPid n false)), n, ?_, ?_⟩
    · have last : r.step? (.ofPid i systemPid) =
          some (r.keep (.ok (.native systemPid n false))) := by
        simp only [step?, r, asked, found, Option.map_some]
      have first : [Event.change (.register systemPid)].foldlM step? s = some r :=
        rfl
      exact Run.concat first last
    · simp [keep]

/-- The whole screen and a process, and then a process with the system's pid. -/
def impostor : List Event :=
  [.arrive, .deviceRoot 0, .change (.register 501), .ofPid 0 501,
    .change (.register systemPid), .ofPid 0 systemPid]

/-- Before the system's pid is registered the elements of the scene are
told apart by it. -/
theorem systemPid_apart_impostor :
    ((impostor.take 4).foldlM step? (fresh fun _ => Tree.screen)).isSome ∧
      ∀ s, (impostor.take 4).foldlM step? (fresh fun _ => Tree.screen) = some s →
        ∀ x ∈ s.built, x.pid = systemPid ↔ x.isDeviceRoot = true :=
  ⟨by decide, fun _ run => (systemPid_apart_until_registered run).2.1 (by decide)⟩

/-- Afterwards they are not. -/
theorem systemPid_taken_by_process :
    ¬∀ (es : List Event) (s : Scene),
      es.foldlM step? (fresh fun _ => Tree.screen) = some s →
      ∀ x ∈ s.built, x.pid = systemPid ↔ x.isDeviceRoot = true := by
  intro reserved
  have built : ∃ s, impostor.foldlM step? (fresh fun _ => Tree.screen) = some s ∧
      .native systemPid ⟨2⟩ false ∈ s.built := ⟨_, rfl, by decide⟩
  obtain ⟨s, run, there⟩ := built
  have root := (reserved impostor s run _ there).mp rfl
  cases root

end Scene

end ElementAgent

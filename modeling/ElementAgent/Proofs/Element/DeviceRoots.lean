import ElementAgent.Element.Namer
import ElementAgent.Proofs.Run
import Mathlib.Data.List.Range

/-!
# Device roots

Namers that share a desktop are asked for elements in any order. Nothing is
assumed of the desktop: between two questions its tree becomes any other, so that
each look-up may be answered in any way, and it may name any node as the whole
screen whenever it is asked. Main statement (`device_root_resolved_once`): a namer
asks for that node once, when it is first asked for the device root, and gives
that answer ever after; no element that is named by its node or by its process is
ever equal to a device root.
-/

namespace ElementAgent

/-! ## One question -/

/-- What a namer can be asked for: the element of a node, of a process, or of the
whole screen. -/
inductive Wish where
  | node (n : Node)
  | process (p : Pid)
  | screen
  deriving DecidableEq

/-- What a namer answers, and the namer and the desktop after it. -/
def Namer.answer (m : Namer) (d : Desktop) :
    Wish → Except Element.Fault Element × Namer × Desktop
  | .node n => (d.elementOfNode n, m, d)
  | .process p => (d.elementOfPid p, m, d)
  | .screen =>
    let (e, m, d) := m.deviceRoot d
    (.ok e, m, d)

/-- The nodes that a desktop has named as the whole screen from one
moment to another. -/
def Desktop.namedUntil (before after : Desktop) : List Node :=
  (List.range' before.asked (after.asked - before.asked)).map after.screenAt

/-- The device root with a node. -/
def Element.rootAt (n : Node) : Element := .native systemPid n true

variable {m : Namer} {d : Desktop} {e : Element} {n : Node} {p : Pid} {wish : Wish}

namespace Desktop

@[simp] theorem namedUntil_self : d.namedUntil d = [] := by simp [namedUntil]

theorem namedUntil_screen : d.namedUntil d.screen.2 = [d.screenAt d.asked] := by
  simp [namedUntil, screen]

/-- An element that is named by its node is no device root, nor is one that is
named by its process. -/
theorem isDeviceRoot_elementOfNode (found : d.elementOfNode n = .ok e) :
    e.isDeviceRoot = false := by
  unfold elementOfNode at found
  split at found <;> cases found
  rfl

theorem isDeviceRoot_elementOfPid (found : d.elementOfPid p = .ok e) :
    e.isDeviceRoot = false := by
  unfold elementOfPid at found
  split at found <;> cases found
  rfl

end Desktop

namespace Namer

/-- A namer that has kept a device root answers with it and asks nobody. -/
theorem answer_screen_of_kept (kept : m.kept = some e) :
    m.answer d .screen = (.ok e, m, d) := by
  simp [answer, deviceRoot, kept]

/-- A namer that has none asks the desktop, and keeps what it answers. -/
theorem answer_screen_of_new (new : m.kept = none) :
    m.answer d .screen =
      (.ok (.rootAt (d.screenAt d.asked)), ⟨some (.rootAt (d.screenAt d.asked))⟩,
        d.screen.2) := by
  simp [answer, deviceRoot, new, Desktop.screen, Element.rootAt]

/-- A namer that is asked for anything else changes nothing. -/
theorem answer_of_ne_screen (other : wish ≠ .screen) :
    ∃ found, m.answer d wish = (found, m, d) ∧
      ∀ e, found = .ok e → e.isDeviceRoot = false := by
  cases wish with
  | node n => exact ⟨_, rfl, fun e => Desktop.isDeviceRoot_elementOfNode⟩
  | process p => exact ⟨_, rfl, fun e => Desktop.isDeviceRoot_elementOfPid⟩
  | screen => exact absurd rfl other

end Namer

/-! ## Many questions -/

/-- One question to a namer. -/
structure Visit where
  /-- The place of the namer in the order of arrival. -/
  namer : Nat
  wish : Wish
  answer : Except Element.Fault Element
  /-- What the desktop named as the whole screen meanwhile. -/
  named : List Node

/-- A desktop, the namers that share it, and what they were
asked, oldest first. -/
structure Workshop where
  desktop : Desktop
  namers : List Namer
  visits : List Visit

namespace Workshop

inductive Event where
  /-- The tree becomes another. -/
  | turn (t : Tree)
  /-- A new namer arrives. -/
  | arrive
  | ask (namer : Nat) (wish : Wish)

/-- One event, if the namer that it asks is there. -/
def step? (w : Workshop) : Event → Option Workshop
  | .turn t => some { w with desktop := { w.desktop with tree := t } }
  | .arrive => some { w with namers := w.namers ++ [.fresh] }
  | .ask i wish => w.namers[i]?.map fun m =>
    let (found, m, d) := m.answer w.desktop wish
    ⟨d, w.namers.set i m, w.visits ++ [⟨i, wish, found, w.desktop.namedUntil d⟩]⟩

/-- A desktop without processes, which names its screen by the nodes
given, and no namers. -/
def fresh (screenAt : Nat → Node) : Workshop := ⟨⟨.empty, screenAt, 0⟩, [], []⟩

/-- What one namer was asked. -/
def visitsOf (w : Workshop) (i : Nat) : List Visit := w.visits.filter (·.namer = i)

/-- The namer was asked for something else than the screen, and did
not ask for it. -/
def IsAside (v : Visit) : Prop := v.wish ≠ .screen ∧ v.named = []

/-- The visits of one namer, and the node that it takes for the whole screen
once it has been asked for that. On the first such visit the desktop names
the node; that is the answer, then and ever after, and on no other visit is
the desktop asked. -/
inductive Resolves : Option Node → List Visit → Prop
  | never {visits} (aside : ∀ v ∈ visits, IsAside v) : Resolves none visits
  | once {before after first n} (aside : ∀ v ∈ before, IsAside v)
      (asks : first.wish = .screen)
      (named : first.named = [n]) (answer : first.answer = .ok (.rootAt n))
      (keeps : ∀ v ∈ after, v.named = [] ∧
        (v.wish = .screen → v.answer = .ok (.rootAt n))) :
      Resolves (some n) (before ++ first :: after)

variable {screenAt : Nat → Node} {w t : Workshop} {es : List Event}
  {i : Nat} {v : Visit} {root : Option Node} {visits : List Visit}

/-- A visit more that is for something else. -/
theorem Resolves.concat_aside (h : Resolves root visits) (aside : IsAside v) :
    Resolves root (visits ++ [v]) := by
  cases h with
  | never quiet =>
      refine .never fun u listed => ?_
      rcases List.mem_append.mp listed with old | new
      · exact quiet u old
      · exact List.mem_singleton.mp new ▸ aside
  | once quiet asks named answer keeps =>
      rw [List.append_assoc, List.cons_append]
      refine .once quiet asks named answer fun u listed => ?_
      rcases List.mem_append.mp listed with old | new
      · exact keeps u old
      · rw [List.mem_singleton.mp new]
        exact ⟨aside.2, fun asks => absurd asks aside.1⟩

/-- The first visit for the screen. -/
theorem Resolves.concat_first (h : Resolves none visits) (asks : v.wish = .screen)
    (named : v.named = [n])
    (answer : v.answer = .ok (.rootAt n)) : Resolves (some n) (visits ++ [v]) := by
  cases h with
  | never aside => exact .once aside asks named answer (by simp)

/-- A later visit for the screen. -/
theorem Resolves.concat_again (h : Resolves (some n) visits) (quiet : v.named = [])
    (answer : v.answer = .ok (.rootAt n)) : Resolves (some n) (visits ++ [v]) := by
  cases h with
  | once aside asks named first keeps =>
      rw [List.append_assoc, List.cons_append]
      refine .once aside asks named first fun u listed => ?_
      rcases List.mem_append.mp listed with old | new
      · exact keeps u old
      · rw [List.mem_singleton.mp new]
        exact ⟨quiet, fun _ => answer⟩

/-- Whoever asks for the screen is answered with a device root. -/
theorem Resolves.exists_root (h : Resolves root visits) (listed : v ∈ visits)
    (asks : v.wish = .screen) :
    ∃ n, v.answer = .ok (.rootAt n) := by
  cases h with
  | never aside => exact absurd asks (aside v listed).1
  | @once before after first n aside _ _ answer keeps =>
      rcases List.mem_append.mp listed with early | late
      · exact absurd asks (aside v early).1
      · rcases List.mem_cons.mp late with rfl | later
        · exact ⟨n, answer⟩
        · exact ⟨n, (keeps v later).2 asks⟩

/-! ## Runs -/

/-- What the namers have kept is what they answered, and the record accounts for
every question to the desktop. -/
structure IsRecorded (screenAt : Nat → Node) (w : Workshop) : Prop where
  source : w.desktop.screenAt = screenAt
  arrived : ∀ v ∈ w.visits, v.namer < w.namers.length
  resolves : ∀ i m, w.namers[i]? = some m →
    ∃ root, Resolves root (w.visitsOf i) ∧ m.kept = root.map Element.rootAt
  named : w.visits.flatMap Visit.named = (List.range w.desktop.asked).map screenAt
  others : ∀ v ∈ w.visits, v.wish ≠ .screen → ∀ e, v.answer = .ok e →
    e.isDeviceRoot = false

theorem isRecorded_fresh : IsRecorded screenAt (fresh screenAt) where
  source := rfl
  arrived := by simp [fresh]
  resolves := by simp [fresh]
  named := rfl
  others := by simp [fresh]

/-- A namer that has not arrived was asked nothing. -/
theorem IsRecorded.visitsOf_eq_nil (h : IsRecorded screenAt w)
    (absent : w.namers.length ≤ i) :
    w.visitsOf i = [] := by
  refine List.filter_eq_nil_iff.mpr fun v listed => ?_
  have earlier := h.arrived v listed
  have other : v.namer ≠ i := by omega
  simpa using other

theorem visitsOf_concat (d : Desktop) (ms : List Namer) :
    visitsOf ⟨d, ms, w.visits ++ [v]⟩ i = if v.namer = i then w.visitsOf i ++ [v]
      else w.visitsOf i := by
  by_cases own : v.namer = i <;> simp [visitsOf, List.filter_append, own]

/-- A visit is recorded as it was, if the namer that is asked keeps
what it answers. -/
theorem IsRecorded.visit (h : IsRecorded screenAt w) {m' : Namer} {d : Desktop}
    (there : i < w.namers.length) (own : v.namer = i)
    (source : d.screenAt = screenAt)
    (resolves : ∃ root, Resolves root (w.visitsOf i ++ [v]) ∧
      m'.kept = root.map Element.rootAt)
    (named : (List.range w.desktop.asked).map screenAt ++ v.named =
      (List.range d.asked).map screenAt)
    (other : v.wish ≠ .screen → ∀ e, v.answer = .ok e → e.isDeviceRoot = false) :
    IsRecorded screenAt ⟨d, w.namers.set i m', w.visits ++ [v]⟩ := by
  refine ⟨source, ?_, ?_, ?_, ?_⟩
  · intro u listed
    rw [List.length_set]
    rcases List.mem_append.mp listed with old | new
    · exact h.arrived u old
    · rw [List.mem_singleton.mp new, own]
      exact there
  · intro j m found
    rw [visitsOf_concat, own]
    by_cases same : i = j
    · subst same
      rw [List.getElem?_set_self there] at found
      cases found
      rw [if_pos rfl]
      exact resolves
    · rw [List.getElem?_set_ne same] at found
      rw [if_neg same]
      exact h.resolves j m found
  · rw [List.flatMap_append, h.named, List.flatMap_singleton]
    exact named
  · intro u listed
    rcases List.mem_append.mp listed with old | new
    · exact h.others u old
    · rw [List.mem_singleton.mp new]
      exact other

/-- Asking a namer is recorded as it was. -/
theorem IsRecorded.ask (h : IsRecorded screenAt w) {m : Namer}
    (found : w.namers[i]? = some m)
    (step : w.step? (.ask i wish) = some t) : IsRecorded screenAt t := by
  obtain ⟨root, resolves, kept⟩ := h.resolves i m found
  have there : i < w.namers.length := (List.getElem?_eq_some_iff.mp found).1
  simp only [step?, found, Option.map_some, Option.some.injEq] at step
  subst step
  by_cases other : wish = .screen
  case neg =>
      obtain ⟨answer, same, plain⟩ :=
        Namer.answer_of_ne_screen (m := m) (d := w.desktop) other
      simp only [same, Desktop.namedUntil_self]
      refine h.visit there rfl h.source
        ⟨root, resolves.concat_aside ⟨other, rfl⟩, kept⟩ ?_ fun _ => plain
      rw [List.append_nil]
  case pos =>
      subst other
      cases root with
      | some n =>
          simp only [Namer.answer_screen_of_kept (d := w.desktop) kept,
            Desktop.namedUntil_self]
          refine h.visit there rfl h.source
            ⟨some n, resolves.concat_again rfl rfl, kept⟩ ?_ ?_
          · rw [List.append_nil]
          · exact fun never => absurd rfl never
      | none =>
          simp only [Namer.answer_screen_of_new (d := w.desktop) kept,
            Desktop.namedUntil_screen]
          refine h.visit there rfl h.source
            ⟨some _, resolves.concat_first rfl rfl rfl, rfl⟩ ?_ ?_
          · -- the question is the next one that the desktop answers
            show _ = (List.range (w.desktop.asked + 1)).map screenAt
            rw [List.range_succ, List.map_append, List.map_singleton, h.source]
          · exact fun never => absurd rfl never

theorem IsRecorded.step (h : IsRecorded screenAt w) {e : Event}
    (step : w.step? e = some t) :
    IsRecorded screenAt t := by
  cases e with
  | turn tree =>
      cases step
      exact ⟨h.source, h.arrived, h.resolves, h.named, h.others⟩
  | arrive =>
      cases step
      refine ⟨h.source, ?_, ?_, h.named, h.others⟩
      · intro v listed
        have earlier := h.arrived v listed
        rw [List.length_append]
        omega
      · intro i m found
        rcases Nat.lt_or_ge i w.namers.length with old | new
        · rw [List.getElem?_append_left old] at found
          exact h.resolves i m found
        · -- the new namer has been asked nothing and has kept nothing
          have nothing : w.visitsOf i = [] := h.visitsOf_eq_nil new
          rw [List.getElem?_append_right new] at found
          have last : m = .fresh := by
            have listed := List.mem_of_getElem? found
            exact List.mem_singleton.mp listed
          subst last
          refine ⟨none, ?_, rfl⟩
          show Resolves none (w.visitsOf i)
          rw [nothing]
          exact .never (by simp)
  | ask i wish =>
      obtain ⟨m, found, -⟩ := Option.map_eq_some_iff.mp step
      exact h.ask found step

theorem isRecorded_of_run (run : es.foldlM step? (fresh screenAt) = some w) :
    IsRecorded screenAt w := by
  refine Run.induct (P := fun _ w => IsRecorded screenAt w) isRecorded_fresh ?_ run
  intro es w e t _ recorded step
  exact recorded.step step

/-- A namer asks for the node of the whole screen once in its life: not before it
is first asked for the device root, and never again. What it answers then, with
the system's pid and that node, it answers ever after, whatever becomes of the
desktop and of the other namers, whose questions are the desktop's others. No
element that is named by its node or by its process is equal to a device root,
although each of the namers may be brought to give an element with the same pid
and the same node. -/
theorem device_root_resolved_once
    (run : es.foldlM step? (fresh screenAt) = some w) :
    (∀ i, ∃ root, Resolves root (w.visitsOf i)) ∧
    w.visits.flatMap Visit.named = (List.range w.desktop.asked).map screenAt ∧
    (∀ v ∈ w.visits, ∀ u ∈ w.visits, v.wish = .screen → u.wish ≠ .screen →
      u.answer ≠ v.answer) ∧
    ∀ v ∈ w.visits, v.wish = .screen → ∃ n, v.answer = .ok (.rootAt n) ∧
      ∀ i < w.namers.length, ∃ tree t u,
        [.turn tree, .ask i (.node n)].foldlM step? w = some t ∧
        t.visits = w.visits ++ [u] ∧
        u.answer = .ok (.native systemPid n false) := by
  have recorded := isRecorded_of_run run
  have resolves (i : Nat) : ∃ root, Resolves root (w.visitsOf i) := by
    rcases Nat.lt_or_ge i w.namers.length with there | absent
    · obtain ⟨root, resolves, -⟩ :=
        recorded.resolves i _ (List.getElem?_eq_getElem there)
      exact ⟨root, resolves⟩
    · rw [recorded.visitsOf_eq_nil absent]
      exact ⟨none, .never (by simp)⟩
  have rooted (v : Visit) (listed : v ∈ w.visits) (asks : v.wish = .screen) :
      ∃ n, v.answer = .ok (.rootAt n) := by
    obtain ⟨root, resolves⟩ := resolves v.namer
    exact resolves.exists_root (List.mem_filter.mpr ⟨listed, by simp⟩) asks
  refine ⟨resolves, recorded.named, ?_, ?_⟩
  · intro v listed u listed' asks other same
    obtain ⟨n, answer⟩ := rooted v listed asks
    have plain := recorded.others u listed' other _ (same.trans answer)
    cases plain
  · intro v listed asks
    obtain ⟨n, answer⟩ := rooted v listed asks
    refine ⟨n, answer, fun i there => ?_⟩
    -- a tree in which the node belongs to a process with the system's pid
    let tree : Tree := ⟨[(n, systemPid)], [], 1⟩
    let d : Desktop := { w.desktop with tree }
    let u : Visit := ⟨i, .node n, .ok (.native systemPid n false), []⟩
    have found : d.elementOfNode n = .ok (.native systemPid n false) := by
      simp [Desktop.elementOfNode, d, tree, Tree.ownerOf?]
    have asked : w.namers[i]? = some w.namers[i] := List.getElem?_eq_getElem there
    refine ⟨tree, ⟨d, w.namers.set i w.namers[i], w.visits ++ [u]⟩, u, ?_, rfl, rfl⟩
    have first : [Event.turn tree].foldlM step? w = some { w with desktop := d } :=
      rfl
    refine Run.concat first ?_
    simp only [step?, asked, Option.map_some, Namer.answer, found,
      Desktop.namedUntil_self, u]

/-- Names one node when it is first asked, and another ever after. -/
def shifting (k : Nat) : Node := if k = 0 then ⟨5⟩ else ⟨6⟩

/-- Two namers on a desktop that names two nodes. The first of these is also the
root of a process that registers with the system's pid. -/
def crowdedEvents : List Event :=
  [.arrive, .arrive, .ask 1 .screen,
    .turn ⟨[(⟨5⟩, systemPid)], [(systemPid, ⟨5⟩)], 1⟩, .ask 0 (.process systemPid),
    .ask 0 .screen, .turn .empty, .ask 1 .screen, .ask 0 .screen]

def crowdedVisits : List Visit :=
  [⟨1, .screen, .ok (.rootAt ⟨5⟩), [⟨5⟩]⟩,
    ⟨0, .process systemPid, .ok (.native systemPid ⟨5⟩ false), []⟩,
    ⟨0, .screen, .ok (.rootAt ⟨6⟩), [⟨6⟩]⟩, ⟨1, .screen, .ok (.rootAt ⟨5⟩), []⟩,
    ⟨0, .screen, .ok (.rootAt ⟨6⟩), []⟩]

theorem crowded_resolved :
    ∃ w, crowdedEvents.foldlM step? (fresh shifting) = some w ∧
      w.visits = crowdedVisits ∧
      (∀ i, ∃ root, Resolves root (w.visitsOf i)) ∧
      ∀ v ∈ w.visits, ∀ u ∈ w.visits, v.wish = .screen → u.wish ≠ .screen →
        u.answer ≠ v.answer := by
  have run : crowdedEvents.foldlM step? (fresh shifting) =
      some ⟨⟨.empty, shifting, 2⟩, [⟨some (.rootAt ⟨6⟩)⟩, ⟨some (.rootAt ⟨5⟩)⟩],
        crowdedVisits⟩ := rfl
  obtain ⟨resolves, -, apart, -⟩ := device_root_resolved_once run
  exact ⟨_, run, rfl, resolves, apart⟩

end Workshop

end ElementAgent

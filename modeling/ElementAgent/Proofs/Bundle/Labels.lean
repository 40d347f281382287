import ElementAgent.Proofs.Bundle.Derivation
import ElementAgent.Proofs.CommandLine.Serving
import Mathlib.Data.List.Chain

/-!
# The labels of derived bundle ids

A bundle id is well formed if it is two or more labels with dots between them.
Accepted options do not make sure of that (`malformed_bundle_id`): a beginning
may have two dots side by side, and so may the name of a command, which may
also begin or end with one. Main statement (`bundle_id_well_formed_iff`):
nothing else goes wrong.
-/

namespace ElementAgent

open Text (IsCore)

/-! ## Labels -/

/-- Letters, digits and hyphens, at least one of them. -/
def IsLabel (label : List Char) : Prop :=
  label ≠ [] ∧ ∀ c ∈ label, isBundleChar c = true ∧ c ≠ '.'

/-- Two labels or more, with dots between them. -/
def IsBundleId (id : List Char) : Prop :=
  ∃ labels : List (List Char), 2 ≤ labels.length ∧ (∀ l ∈ labels, IsLabel l) ∧
    ['.'].intercalate labels = id

/-- One of two neighbours is no dot. -/
def Apart (c d : Char) : Prop := c = '.' → d ≠ '.'

instance : DecidableRel Apart :=
  fun c d => inferInstanceAs (Decidable (c = '.' → d ≠ '.'))

/-- With a dot before it and a dot behind it the text has no two
dots side by side. -/
def Separated (cs : List Char) : Prop := ('.' :: cs ++ ['.']).IsChain Apart

instance (cs : List Char) : Decidable (Separated cs) :=
  inferInstanceAs (Decidable (('.' :: cs ++ ['.']).IsChain Apart))

variable {cs front back label core : List Char}
  {labels : List (List Char)} {c : Char}

theorem separated_join :
    Separated (front ++ '.' :: back) ↔ Separated front ∧ Separated back := by
  have split : '.' :: (front ++ '.' :: back) ++ ['.'] =
      ('.' :: front) ++ '.' :: (back ++ ['.']) := by simp
  unfold Separated
  rw [split, List.isChain_split]
  rfl

theorem separated_iff :
    Separated cs ↔ cs ≠ [] ∧ cs.head? ≠ some '.' ∧ cs.getLast? ≠ some '.' ∧
    cs.IsChain Apart := by
  cases cs with
  | nil => decide
  | cons c cs =>
      have first : (∀ d ∈ ((c :: cs) ++ ['.']).head?, Apart '.' d) ↔
          (c :: cs).head? ≠ some '.' := by
        simp [Apart]
      have last :
          (∀ d ∈ (c :: cs).getLast?, ∀ e ∈ (['.'] : List Char).head?, Apart d e) ↔
          (c :: cs).getLast? ≠ some '.' := by
        constructor
        · intro apart dot
          exact apart '.' dot '.' rfl rfl rfl
        · intro other d last e _ dot
          exact absurd (dot ▸ last) other
      unfold Separated
      rw [List.cons_append, List.isChain_cons, first, List.isChain_append, last]
      simp only [List.isChain_singleton, ne_eq, reduceCtorEq,
        not_false_eq_true, true_and]
      tauto

theorem separated_of_dotless (dotless : '.' ∉ label) :
    Separated label ↔ label ≠ [] := by
  have chain : label.IsChain Apart := by
    refine (List.pairwise_of_forall_mem_list ?_).isChain
    intro c _ d listed _ dot
    exact dotless (dot ▸ listed)
  have first : label.head? ≠ some '.' := fun dot => dotless (List.mem_of_head? dot)
  have last : label.getLast? ≠ some '.' :=
    fun dot => dotless (List.mem_of_getLast? dot)
  rw [separated_iff]
  exact ⟨And.left, fun nonempty => ⟨nonempty, first, last, chain⟩⟩

theorem intercalate_cons (more : labels ≠ []) :
    ['.'].intercalate (label :: labels) =
      label ++ '.' :: ['.'].intercalate labels := by
  cases labels with
  | nil => exact absurd rfl more
  | cons l ls =>
      rw [List.intercalate_cons_cons, List.append_assoc, List.singleton_append]

/-- Between labels without dots there is an empty one wherever two
dots come together. -/
theorem separated_intercalate (dotless : ∀ l ∈ label :: labels, '.' ∉ l) :
    Separated (['.'].intercalate (label :: labels)) ↔
    ∀ l ∈ label :: labels, l ≠ [] := by
  induction labels generalizing label with
  | nil =>
      rw [List.intercalate_singleton,
        separated_of_dotless (dotless label List.mem_cons_self)]
      simp
  | cons l ls ih =>
      rw [intercalate_cons (by simp), separated_join,
        ih fun m listed => dotless m (.tail _ listed),
        separated_of_dotless (dotless label List.mem_cons_self)]
      exact (List.forall_mem_cons (p := fun m => m ≠ [])).symm

theorem mem_intercalate (label : List Char) (labels : List (List Char)) :
    c ∈ ['.'].intercalate (label :: labels) ↔
    (∃ l ∈ label :: labels, c ∈ l) ∨ labels ≠ [] ∧ c = '.' := by
  induction labels generalizing label with
  | nil => simp
  | cons l ls ih =>
      rw [intercalate_cons (by simp), List.mem_append, List.mem_cons, ih l]
      by_cases dot : c = '.' <;> simp [dot, or_assoc]

/-- Every text is made of labels without dots, which may be empty. -/
theorem exists_dotless (cs : List Char) :
    ∃ label labels, ['.'].intercalate (label :: labels) = cs ∧
      ∀ l ∈ label :: labels, '.' ∉ l := by
  induction cs with
  | nil => exact ⟨[], [], by simp⟩
  | cons c cs ih =>
      obtain ⟨label, labels, rfl, dotless⟩ := ih
      by_cases dot : c = '.'
      · refine ⟨[], label :: labels, ?_, ?_⟩
        · rw [intercalate_cons (by simp), dot, List.nil_append]
        · exact List.forall_mem_cons.mpr ⟨by simp, dotless⟩
      · obtain ⟨first, rest⟩ := List.forall_mem_cons.mp dotless
        refine ⟨c :: label, labels, ?_, List.forall_mem_cons.mpr ⟨?_, rest⟩⟩
        · cases labels with
          | nil => simp
          | cons l ls => simp [List.intercalate_cons_cons]
        · rw [List.mem_cons, not_or]
          exact ⟨Ne.symm dot, first⟩

/-- A bundle id has no dot first, none last and no two side by side. -/
theorem isBundleId_iff : IsBundleId cs ↔
    (∀ c ∈ cs, isBundleChar c = true) ∧ '.' ∈ cs ∧ Separated cs := by
  constructor
  · rintro ⟨labels, two, wellFormed, rfl⟩
    cases labels with
    | nil => simp at two
    | cons label labels =>
        have more : labels ≠ [] := by
          rintro rfl
          simp at two
        have dotless : ∀ l ∈ label :: labels, '.' ∉ l := by
          intro l listed dot
          exact ((wellFormed l listed).2 '.' dot).2 rfl
        refine ⟨?_, (mem_intercalate label labels).mpr (.inr ⟨more, rfl⟩), ?_⟩
        · intro c listed
          rcases (mem_intercalate label labels).mp listed
            with ⟨l, there, within⟩ | ⟨-, rfl⟩
          · exact ((wellFormed l there).2 c within).1
          · rfl
        · exact (separated_intercalate dotless).mpr fun l listed =>
            (wellFormed l listed).1
  · rintro ⟨allowed, dot, separated⟩
    obtain ⟨label, labels, rfl, dotless⟩ := exists_dotless cs
    refine ⟨label :: labels, ?_, ?_, rfl⟩
    · rcases (mem_intercalate label labels).mp dot
        with ⟨l, listed, within⟩ | ⟨more, -⟩
      · exact absurd within (dotless l listed)
      · have some_label := List.length_pos_of_ne_nil more
        rw [List.length_cons]
        omega
    · intro l listed
      refine ⟨(separated_intercalate dotless).mp separated l listed,
        fun c within => ⟨?_, ?_⟩⟩
      · exact allowed c
          ((mem_intercalate label labels).mpr (.inl ⟨l, listed, within⟩))
      · rintro rfl
        exact dotless l listed within

instance (id : List Char) : Decidable (IsBundleId id) :=
  decidable_of_iff (id.all isBundleChar = true ∧ '.' ∈ id ∧ Separated id)
    (by rw [isBundleId_iff, List.all_eq_true])

/-! ## Derived bundle ids -/

theorem bundleChar_eq_dot_iff : bundleChar c = '.' ↔ c = '.' := by
  unfold bundleChar
  split
  case isTrue => rfl
  case isFalse refused =>
      have other : c ≠ '.' := by
        rintro rfl
        exact refused rfl
      simp [other]

/-- A name has its dots where the command has them. -/
theorem separated_map_bundleChar :
    Separated (core.map bundleChar) ↔ Separated core := by
  have mapped : '.' :: core.map bundleChar ++ ['.'] =
      ('.' :: core ++ ['.']).map bundleChar := by
    simp [bundleChar_eq_dot_iff.mpr]
  have same (c d : Char) : Apart (bundleChar c) (bundleChar d) ↔ Apart c d := by
    simp [Apart, bundleChar_eq_dot_iff]
  unfold Separated
  rw [mapped, List.isChain_map]
  simp only [same]

theorem toList_join (beginning : String) (name : List Char) :
    (beginning ++ "." ++ String.ofList name).toList =
      beginning.toList ++ '.' :: name := by simp

/-- There is nothing but characters of bundle ids in a bundle id, if its beginning
has nothing else. -/
theorem isBundleChar_of_mem_join (beginning : ∀ c ∈ front, isBundleChar c = true)
    (listed : c ∈ front ++ '.' :: core.map bundleChar) : isBundleChar c = true := by
  rcases List.mem_append.mp listed with before | behind
  · exact beginning c before
  · rcases List.mem_cons.mp behind with rfl | name
    · rfl
    · obtain ⟨b, -, rfl⟩ := List.mem_map.mp name
      exact isBundleChar_bundleChar b

/-- A host with one process, which shows the given text as its command. -/
def ProcessView.lone (command : String) : ProcessView :=
  ⟨"/proc", fun p => p == 7, fun _ => .ok (Text.Utf8.encode command)⟩

namespace ServeOptions

variable {o : ServeOptions} {v : ProcessView} {p : Pid} {id : String}

/-- What is accepted as the beginning of bundle ids. -/
theorem beginning_of_accepted (accepted : o.fault? = none) :
    o.bundlePrefix.toList ≠ [] ∧ o.bundlePrefix.toList.head? ≠ some '.' ∧
      o.bundlePrefix.toList.getLast? ≠ some '.' ∧
      ∀ c ∈ o.bundlePrefix.toList, isBundleChar c = true := by
  have good := isBundlePrefix_of_accepted accepted
  simp only [isBundlePrefix, Bool.and_eq_true, Bool.not_eq_true',
    List.isEmpty_eq_false_iff, bne_iff_ne, List.all_eq_true] at good
  obtain ⟨⟨⟨nonempty, first⟩, last⟩, beginning⟩ := good
  exact ⟨nonempty, first, last, beginning⟩

/-- It may only have two dots side by side. -/
theorem separated_prefix_iff (accepted : o.fault? = none) :
    Separated o.bundlePrefix.toList ↔ o.bundlePrefix.toList.IsChain Apart := by
  obtain ⟨nonempty, first, last, -⟩ := beginning_of_accepted accepted
  rw [separated_iff]
  exact ⟨fun separated => separated.2.2.2,
    fun chain => ⟨nonempty, first, last, chain⟩⟩

/-- Under options that are accepted every bundle id that is derived has characters
of bundle ids only, with a dot among them but not in front. It is well formed if
and only if its beginning has no two dots side by side and the command, without
the blanks around it, neither has them nor begins or ends with a dot. -/
theorem bundle_id_well_formed_iff (accepted : o.fault? = none)
    (derived : v.derivedBundle o.bundlePrefix p = .ok id) :
    (∀ c ∈ id.toList, isBundleChar c = true) ∧ '.' ∈ id.toList ∧
    id.toList.head? ≠ some '.' ∧
    ∃ text core, v.command p = .ok (Text.Utf8.encode text) ∧
      IsCore text.toList core ∧
      (IsBundleId id.toList ↔ o.bundlePrefix.toList.IsChain Apart ∧
        core.head? ≠ some '.' ∧ core.getLast? ≠ some '.' ∧ core.IsChain Apart) := by
  obtain ⟨nonempty, first, -, beginning⟩ := beginning_of_accepted accepted
  cases ProcessView.derivedBundle_eq_iff.mp derived with
  | @named text core name lives read trimmed some_char stands =>
      rw [toList_join, standsFor_iff.mp stands]
      have allowed : ∀ c ∈ o.bundlePrefix.toList ++ '.' :: core.map bundleChar,
          isBundleChar c = true :=
        fun c => isBundleChar_of_mem_join beginning
      have dot : '.' ∈ o.bundlePrefix.toList ++ '.' :: core.map bundleChar :=
        List.mem_append_right _ List.mem_cons_self
      refine ⟨allowed, dot, ?_, text, core, read, trimmed, ?_⟩
      · rwa [List.head?_append_of_ne_nil _ nonempty]
      · rw [isBundleId_iff, separated_join, separated_prefix_iff accepted,
          separated_map_bundleChar, separated_iff]
        exact ⟨fun h => ⟨h.2.2.1, h.2.2.2.2⟩,
          fun h => ⟨allowed, dot, h.1, some_char, h.2⟩⟩

theorem bundle_id_well_formed_iff_spaced :
    ({} : ServeOptions).fault? = none ∧
    (ProcessView.lone " My App_2\n").derivedBundle
      ({} : ServeOptions).bundlePrefix 7 =
      .ok "local.process.My-App-2" ∧
    IsBundleId "local.process.My-App-2".toList ∧
    ∃ text core, (ProcessView.lone " My App_2\n").command 7 =
      .ok (Text.Utf8.encode text) ∧
      IsCore text.toList core ∧ core.head? ≠ some '.' ∧ core.getLast? ≠ some '.' ∧
      core.IsChain Apart := by
  have accepted : ({} : ServeOptions).fault? = none := by decide
  have derived : (ProcessView.lone " My App_2\n").derivedBundle
      ({} : ServeOptions).bundlePrefix 7 =
      .ok "local.process.My-App-2" := by decide +kernel
  have wellFormed : IsBundleId "local.process.My-App-2".toList := by decide
  obtain ⟨-, -, -, text, core, read, trimmed, same⟩ :=
    bundle_id_well_formed_iff accepted derived
  exact ⟨accepted, derived, wellFormed, text, core, read, trimmed,
    (same.mp wellFormed).2⟩

/-- Accepted options, and hosts, under which there is an empty label: inside the
beginning, before the name, and behind it. -/
theorem malformed_bundle_id :
    (({ bundlePrefix := "a..b" } : ServeOptions).fault? = none ∧
      (ProcessView.lone "x\n").derivedBundle "a..b" 7 = .ok "a..b.x" ∧
      ¬IsBundleId "a..b.x".toList) ∧
    ({} : ServeOptions).fault? = none ∧
    ((ProcessView.lone ".x\n").derivedBundle ({} : ServeOptions).bundlePrefix 7 =
      .ok "local.process..x" ∧
      ¬IsBundleId "local.process..x".toList) ∧
    (ProcessView.lone "x.\n").derivedBundle ({} : ServeOptions).bundlePrefix 7 =
      .ok "local.process.x." ∧
      ¬IsBundleId "local.process.x.".toList := by
  refine ⟨⟨?_, ?_, ?_⟩, ?_, ⟨?_, ?_⟩, ?_, ?_⟩
  all_goals decide +kernel

end ServeOptions

end ElementAgent

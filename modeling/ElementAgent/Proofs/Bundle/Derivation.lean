import ElementAgent.Proofs.Bundle.Names
import Mathlib.Data.List.DropRight
import Mathlib.Data.List.Forall2

/-!
# Which bundle id is derived

A bundle id is derived from what the host shows of a process: whether it lives,
and the file with its command. `Derives` says what comes of each thing that a host
can show. Main statement (`derivation_complete`): the rule gives that and nothing
else; there is an id if and only if the process lives and its command is a text
that is not all blank.
-/

namespace ElementAgent

namespace Text

/-! ## Trimming -/

/-- What is left of a text without the blanks around it. -/
structure IsCore (text core : List Char) : Prop where
  between : ∃ front back, text = front ++ core ++ back ∧
    (∀ c ∈ front, isBlank c = true) ∧
    ∀ c ∈ back, isBlank c = true
  first : ∀ c, core.head? = some c → isBlank c = false
  last : ∀ c, core.getLast? = some c → isBlank c = false

variable {text core : List Char}

theorem trim_eq_rdropWhile (text : List Char) :
    trim text = (text.dropWhile isBlank).rdropWhile isBlank := rfl

theorem isCore_trim (text : List Char) : IsCore text (trim text) where
  between := by
    refine ⟨text.takeWhile isBlank,
      (text.dropWhile isBlank).rtakeWhile isBlank, ?_, ?_, ?_⟩
    · rw [trim_eq_rdropWhile, List.append_assoc, List.rdropWhile_append_rtakeWhile,
        List.takeWhile_append_dropWhile]
    · intro c listed
      exact List.mem_takeWhile_imp listed
    · intro c listed
      exact List.mem_rtakeWhile_imp listed
  first := by
    intro c first
    obtain ⟨rest, split⟩ := List.rdropWhile_prefix isBlank (text.dropWhile isBlank)
    have found : (text.dropWhile isBlank).head? = some c := by
      rw [← split, List.head?_append, ← trim_eq_rdropWhile, first]
      rfl
    have plain := List.head?_dropWhile_not isBlank text
    rw [found] at plain
    exact plain
  last := by
    intro c last
    have some_char : (text.dropWhile isBlank).rdropWhile isBlank ≠ [] := by
      intro empty
      rw [trim_eq_rdropWhile, empty] at last
      cases last
    have plain := List.rdropWhile_last_not isBlank _ some_char
    rw [trim_eq_rdropWhile, List.getLast?_eq_some_getLast some_char] at last
    cases last
    exact eq_false_of_ne_true plain

theorem dropWhile_isBlank_of_first
    (first : ∀ c, core.head? = some c → isBlank c = false) :
    core.dropWhile isBlank = core := by
  cases core with
  | nil => rfl
  | cons c core => exact List.dropWhile_cons_of_neg (by simp [first c rfl])

/-- There is one core only. -/
theorem IsCore.eq_trim (h : IsCore text core) : core = trim text := by
  obtain ⟨front, back, rfl, blankFront, blankBack⟩ := h.between
  -- the front goes first; what it leaves begins with no blank, nor does its
  -- mirror image without the back
  rw [trim, List.append_assoc, List.dropWhile_append_of_pos blankFront]
  cases core with
  | nil =>
      have nothing : back.dropWhile isBlank = [] :=
        List.dropWhile_eq_nil_iff.mpr blankBack
      rw [List.nil_append, nothing]
      rfl
  | cons c core =>
      have begins : ((c :: core) ++ back).dropWhile isBlank = (c :: core) ++ back :=
        dropWhile_isBlank_of_first fun d first => h.first d first
      have ends : ((c :: core).reverse).dropWhile isBlank = (c :: core).reverse :=
        dropWhile_isBlank_of_first fun d first =>
          h.last d (by rwa [List.head?_reverse] at first)
      rw [begins, List.reverse_append, List.dropWhile_append_of_pos, ends,
        List.reverse_reverse]
      intro d listed
      exact blankBack d (List.mem_reverse.mp listed)

theorem trim_eq_nil_iff : trim text = [] ↔ ∀ c ∈ text, isBlank c = true := by
  constructor
  · intro empty
    obtain ⟨front, back, split, blankFront, blankBack⟩ := (isCore_trim text).between
    rw [empty, List.append_nil] at split
    rw [split]
    intro c listed
    exact (List.mem_append.mp listed).elim (blankFront c) (blankBack c)
  · intro blank
    rw [trim, List.dropWhile_eq_nil_iff.mpr blank]
    rfl

theorem trim_of_not_blank (plain : ∀ c ∈ text, isBlank c = false) :
    trim text = text := by
  refine (IsCore.eq_trim ⟨⟨[], [], by simp⟩, ?_, ?_⟩).symm
  · intro c first
    exact plain c (List.mem_of_mem_head? first)
  · intro c last
    exact plain c (List.mem_of_getLast? last)

end Text

open Text (IsCore)

/-! ## Names -/

/-- Character by character, what stands for a command in a bundle id: itself where
it is allowed there, and hyphens elsewhere. -/
def StandsFor : List Char → List Char → Prop :=
  List.Forall₂ fun c d => if isBundleChar c then d = c else d = '-'

variable {core name command : List Char}

theorem standsFor_iff : StandsFor core name ↔ name = core.map bundleChar := by
  have same (c d : Char) : (if isBundleChar c then d = c else d = '-') ↔
      bundleChar c = d := by
    unfold bundleChar
    split <;> exact eq_comm
  unfold StandsFor
  simp only [same]
  rw [← List.forall₂_map_left_iff (R := Eq), List.forall₂_eq_eq_eq]
  exact eq_comm

theorem isBlank_of_isBundleChar {c : Char} (allowed : isBundleChar c = true) :
    Text.isBlank c = false := by
  have table : ∀ n < 0x80, isBundleChar (Char.ofNat n) = true →
      Text.isBlank (Char.ofNat n) = false := by decide
  have entry := table c.toNat (lt_of_isBundleChar allowed)
  rw [Char.ofNat_toNat] at entry
  exact entry allowed

/-- A name that stands in a bundle id stands for itself. -/
theorem StandsFor.bundleName_eq (h : StandsFor core name) :
    bundleName name = name := by
  rw [standsFor_iff] at h
  have allowed : ∀ c ∈ name, isBundleChar c = true := by
    intro c listed
    rw [h] at listed
    obtain ⟨b, -, rfl⟩ := List.mem_map.mp listed
    exact isBundleChar_bundleChar b
  have kept : ∀ c ∈ name, bundleChar c = c := by
    intro c listed
    exact if_pos (allowed c listed)
  rw [bundleName, Text.trim_of_not_blank fun c listed =>
    isBlank_of_isBundleChar (allowed c listed)]
  rw [List.map_congr_left kept, List.map_id']

theorem bundleName_eq_nil_iff :
    bundleName command = [] ↔ ∀ c ∈ command, Text.isBlank c = true := by
  rw [bundleName, List.map_eq_nil_iff, Text.trim_eq_nil_iff]

/-! ## What a host shows -/

namespace ProcessView

variable {v : ProcessView} {beginning : String} {p : Pid}
  {r : Except Failure String} {text : String}

/-- The pid is that of a process, and the process lives. -/
def Lives (v : ProcessView) (p : Pid) : Prop := 0 < p ∧ v.isAlive p = true

/-- What comes of each thing that a host can show of a process. -/
inductive Derives (v : ProcessView) (beginning : String) (p : Pid) :
    Except Failure String → Prop where
  | absent (absent : ¬v.Lives p) :
      Derives v beginning p (.error (.processNotFound p))
  | missing (lives : v.Lives p) (missing : v.command p = .error .noEntry) :
      Derives v beginning p (.error (.notInstrumentable p "no command name"))
  | refused {fault : HostFault} (lives : v.Lives p)
      (refused : v.command p = .error fault)
      (other : fault ≠ .noEntry) :
      Derives v beginning p (.error (v.unreadable p fault.message))
  | garbled {bytes : List UInt8} (lives : v.Lives p)
      (read : v.command p = .ok bytes)
      (garbled : ∀ text, Text.Utf8.encode text ≠ bytes) :
      Derives v beginning p
        (.error (v.unreadable p "stream did not contain valid UTF-8"))
  | blank {text : String} (lives : v.Lives p)
      (read : v.command p = .ok (Text.Utf8.encode text))
      (blank : ∀ c ∈ text.toList, Text.isBlank c = true) :
      Derives v beginning p (.error (.notInstrumentable p "empty command name"))
  | named {text : String} {core name : List Char} (lives : v.Lives p)
      (read : v.command p = .ok (Text.Utf8.encode text))
      (trimmed : IsCore text.toList core)
      (nonempty : core ≠ []) (stands : StandsFor core name) :
      Derives v beginning p (.ok (beginning ++ "." ++ String.ofList name))

theorem derivedBundle_of_absent (absent : ¬v.Lives p) :
    v.derivedBundle beginning p = .error (.processNotFound p) := if_neg absent

theorem derivedBundle_of_unread {f : Failure} (lives : v.Lives p)
    (unread : v.commandText p = .error f) :
    v.derivedBundle beginning p = .error f := by
  refine (if_pos lives).trans ?_
  rw [unread]

theorem commandText_of_read (read : v.command p = .ok (Text.Utf8.encode text)) :
    v.commandText p = .ok text := by
  simp [commandText, read, Text.Utf8.decode_encode]

theorem commandText_of_garbled {bytes : List UInt8} (read : v.command p = .ok bytes)
    (garbled : ∀ text, Text.Utf8.encode text ≠ bytes) :
    v.commandText p =
      .error (v.unreadable p "stream did not contain valid UTF-8") := by
  cases decoded : Text.Utf8.decode bytes with
  | ok text => exact absurd (Text.Utf8.decode_eq_ok_iff.mp decoded) (garbled text)
  | error fault => simp [commandText, read, decoded]

theorem commandText_of_refused {fault : HostFault}
    (refused : v.command p = .error fault) (other : fault ≠ .noEntry) :
    v.commandText p = .error (v.unreadable p fault.message) := by
  cases fault <;> first | exact absurd rfl other | simp [commandText, refused]

theorem derivedBundle_of_read (lives : v.Lives p)
    (read : v.command p = .ok (Text.Utf8.encode text)) :
    v.derivedBundle beginning p =
      if bundleName text.toList = [] then
        .error (.notInstrumentable p "empty command name")
      else .ok (beginning ++ "." ++ String.ofList (bundleName text.toList)) := by
  refine (if_pos lives).trans ?_
  rw [commandText_of_read read]
  dsimp only
  cases bundleName text.toList <;> rfl

theorem Derives.eq (h : v.Derives beginning p r) :
    v.derivedBundle beginning p = r := by
  cases h with
  | absent absent => exact derivedBundle_of_absent absent
  | missing lives missing =>
      exact derivedBundle_of_unread lives (by simp [commandText, missing])
  | refused lives refused other =>
      exact derivedBundle_of_unread lives (commandText_of_refused refused other)
  | garbled lives read garbled =>
      exact derivedBundle_of_unread lives (commandText_of_garbled read garbled)
  | blank lives read blank =>
      rw [derivedBundle_of_read lives read,
        if_pos (bundleName_eq_nil_iff.mpr blank)]
  | @named text core name lives read trimmed nonempty stands =>
      have same : bundleName text.toList = name := by
        rw [standsFor_iff.mp stands, trimmed.eq_trim, bundleName]
      have nonempty' : name ≠ [] := by
        rw [standsFor_iff.mp stands]
        simpa using nonempty
      rw [derivedBundle_of_read lives read, same, if_neg nonempty']

/-- Something comes of whatever a host shows. -/
theorem exists_derives (v : ProcessView) (beginning : String) (p : Pid) :
    ∃ r, v.Derives beginning p r := by
  by_cases lives : v.Lives p
  case neg => exact ⟨_, .absent lives⟩
  cases read : v.command p with
  | error fault =>
      by_cases missing : fault = .noEntry
      · exact ⟨_, .missing lives (missing ▸ read)⟩
      · exact ⟨_, .refused lives read missing⟩
  | ok bytes =>
      by_cases garbled : ∀ text, Text.Utf8.encode text ≠ bytes
      · exact ⟨_, .garbled lives read garbled⟩
      · push Not at garbled
        obtain ⟨text, rfl⟩ := garbled
        by_cases empty : Text.trim text.toList = []
        · exact ⟨_, .blank lives read (Text.trim_eq_nil_iff.mp empty)⟩
        · exact ⟨_, .named lives read (Text.isCore_trim _) empty
            (standsFor_iff.mpr rfl)⟩

theorem derivedBundle_eq_iff :
    v.derivedBundle beginning p = r ↔ v.Derives beginning p r := by
  constructor
  · intro derived
    obtain ⟨s, derives⟩ := exists_derives v beginning p
    rw [derives.eq] at derived
    exact derived ▸ derives
  · exact Derives.eq

/-- For every host, beginning and pid the rule gives what `Derives` says. It gives
a bundle id if and only if the process lives and the file with its command spells
a text with a character that is not blank; the name in it stands for itself. Else
it fails: a process that does not live is not found, whatever the host has in its
file, and any other is not instrumentable. -/
theorem derivation_complete (v : ProcessView) (beginning : String) (p : Pid) :
    (∀ r, v.derivedBundle beginning p = r ↔ v.Derives beginning p r) ∧
    ((∃ id, v.derivedBundle beginning p = .ok id) ↔ v.Lives p ∧
      ∃ text, v.command p = .ok (Text.Utf8.encode text) ∧
        ∃ c ∈ text.toList, Text.isBlank c = false) ∧
    (∀ core name, StandsFor core name → bundleName name = name) ∧
    (¬v.Lives p → v.derivedBundle beginning p = .error (.processNotFound p)) ∧
    ∀ f, v.Lives p → v.derivedBundle beginning p = .error f →
      ∃ why, f = .notInstrumentable p why := by
  refine ⟨fun r => derivedBundle_eq_iff, ⟨?_, ?_⟩,
    fun _ _ => StandsFor.bundleName_eq, derivedBundle_of_absent, ?_⟩
  · rintro ⟨id, derived⟩
    cases derivedBundle_eq_iff.mp derived with
    | @named text core _ lives read trimmed nonempty _ =>
        refine ⟨lives, text, read, ?_⟩
        by_contra blank
        push Not at blank
        refine nonempty
          (trimmed.eq_trim.trans (Text.trim_eq_nil_iff.mpr fun c listed => ?_))
        exact eq_true_of_ne_false (blank c listed)
  · rintro ⟨lives, text, read, c, listed, plain⟩
    have nonempty : bundleName text.toList ≠ [] := by
      intro empty
      have blank := bundleName_eq_nil_iff.mp empty c listed
      rw [plain] at blank
      cases blank
    exact ⟨_, (derivedBundle_of_read lives read).trans (if_neg nonempty)⟩
  · intro f lives derived
    cases derivedBundle_eq_iff.mp derived with
    | absent absent => exact absurd lives absent
    | missing => exact ⟨_, rfl⟩
    | refused => exact ⟨_, rfl⟩
    | garbled => exact ⟨_, rfl⟩
    | blank => exact ⟨_, rfl⟩

end ProcessView

end ElementAgent

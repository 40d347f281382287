import ElementAgent.Bundle.Derived
import ElementAgent.Proofs.Text.Utf8
import Mathlib.Data.Nat.Digits.Defs

/-!
# How long derived bundle ids are

A host shows the name of a command as its bytes and a line feed. Main statement
(`derived_of_isNamed`): the bundle id that is derived for a process has at most as
many characters behind its beginning and the dot as the name has bytes, each of
them one byte long; otherwise the failure says so in a few words.
-/

namespace ElementAgent

/-! ## Texts and their bytes -/

namespace Text.Utf8

theorem length_encode_eq_sum (s : String) :
    (encode s).length = (s.toList.map Char.utf8Size).sum := by
  simp [encode, List.length_flatMap]

/-- No character takes more than four bytes. -/
theorem length_encode_le_mul (s : String) : (encode s).length ≤ 4 * s.length := by
  rw [length_encode_eq_sum, ← String.length_toList]
  induction s.toList with
  | nil => exact Nat.le_refl _
  | cons c cs ih =>
      have wide := c.utf8Size_le_four
      simp only [List.map_cons, List.sum_cons, List.length_cons]
      omega

/-- No character takes less than one byte. -/
theorem length_le_length_flatMap (cs : List Char) :
    cs.length ≤ (cs.flatMap String.utf8EncodeChar).length := by
  induction cs with
  | nil => exact Nat.le_refl _
  | cons c cs ih =>
      have some_byte := c.utf8Size_pos
      simp only [List.flatMap_cons, List.length_append,
        String.length_utf8EncodeChar, List.length_cons]
      omega

/-- Where all characters are ASCII each takes one byte. -/
theorem length_encode_of_ascii {s : String}
    (ascii : ∀ c ∈ s.toList, c.toNat < 0x80) :
    (encode s).length = s.length := by
  rw [length_encode_eq_sum, ← String.length_toList]
  have one : s.toList.map Char.utf8Size = s.toList.map fun _ => 1 := by
    apply List.map_congr_left
    intro c hc
    rw [Char.utf8Size_eq_one_iff, UInt32.le_iff_toNat_le]
    exact Nat.le_of_lt_succ (ascii c hc)
  rw [one, List.map_const', List.sum_replicate_nat, Nat.mul_one]

/-- Only the line feed ends with the byte of a line feed. -/
theorem eq_newline_of_encodeChar {c : Char} {front : List UInt8}
    (h : String.utf8EncodeChar c = front ++ [0x0A]) : c = '\n' ∧ front = [] := by
  have tail : ∀ n : Nat, UInt8.ofNat (n % 64 + 128) ≠ 0x0A := by
    intro n same
    have value := congrArg UInt8.toNat same
    rw [toNat_byte (by omega)] at value
    change n % 64 + 128 = 10 at value
    omega
  have value : c.val.toNat = c.toNat := rfl
  unfold String.utf8EncodeChar at h
  rw [value] at h
  by_cases one : c.toNat ≤ 0x7F
  · rw [if_pos one] at h
    cases front with
    | nil =>
        have same := congrArg UInt8.toNat (List.head_eq_of_cons_eq h)
        rw [toNat_byte (by omega)] at same
        exact ⟨Char.ext (UInt32.toNat_inj.mp same), rfl⟩
    | cons b front => simp at h
  · -- a longer spelling ends with a continuing byte
    rw [if_neg one] at h
    have last := congrArg List.getLast? h
    rw [List.getLast?_concat] at last
    split_ifs at last <;> exact absurd (Option.some.inj last) (tail _)

/-- A text that is spelled with a line feed at its end has one, and the rest
spells the rest. -/
theorem exists_of_encode_eq_concat {s : String} {bytes : List UInt8}
    (h : encode s = bytes ++ [0x0A]) :
    ∃ cs, s.toList = cs ++ ['\n'] ∧ cs.flatMap String.utf8EncodeChar = bytes := by
  unfold encode at h
  rcases List.eq_nil_or_concat s.toList with empty | ⟨cs, c, split⟩
  · rw [empty] at h
    simp at h
  · rw [List.concat_eq_append] at split
    rw [split, List.flatMap_append, List.flatMap_singleton] at h
    rcases List.eq_nil_or_concat (String.utf8EncodeChar c)
      with none | ⟨front, b, spelled⟩
    · exact absurd none
        (by simp [← List.length_eq_zero_iff, Nat.ne_of_gt c.utf8Size_pos])
    · rw [List.concat_eq_append] at spelled
      rw [spelled, ← List.append_assoc] at h
      obtain ⟨same, last⟩ := List.append_inj' h rfl
      rw [List.cons.inj last |>.1] at spelled
      obtain ⟨rfl, rfl⟩ := eq_newline_of_encodeChar spelled
      exact ⟨cs, split, by simpa using same⟩

end Text.Utf8

/-! ## Names -/

/-- A blank at the end goes. -/
theorem length_trim_concat_le {cs : List Char} {c : Char}
    (blank : Text.isBlank c = true) :
    (Text.trim (cs ++ [c])).length ≤ cs.length := by
  have shorter := (List.dropWhile_suffix (l := cs) Text.isBlank).length_le
  unfold Text.trim
  rw [List.dropWhile_append]
  split
  · simp [blank]
  · rw [List.reverse_append, List.reverse_singleton, List.singleton_append,
      List.dropWhile_cons_of_pos blank, List.length_reverse]
    have rest := (List.dropWhile_suffix (l := (cs.dropWhile Text.isBlank).reverse)
      Text.isBlank).length_le
    rw [List.length_reverse] at rest
    exact Nat.le_trans rest shorter

theorem isBundleChar_bundleChar (c : Char) :
    isBundleChar (bundleChar c) = true := by
  unfold bundleChar
  split
  · assumption
  · rfl

theorem isBundleChar_of_mem_bundleName {command : List Char} {c : Char}
    (listed : c ∈ bundleName command) :
    isBundleChar c = true := by
  obtain ⟨b, -, rfl⟩ := List.mem_map.mp listed
  exact isBundleChar_bundleChar b

/-- The characters of bundle ids are ASCII. -/
theorem lt_of_isBundleChar {c : Char} (allowed : isBundleChar c = true) :
    c.toNat < 0x80 := by
  have classes : isBundleChar c = (decide ('A'.val ≤ c.val ∧ c.val ≤ 'Z'.val) ||
      decide ('a'.val ≤ c.val) && decide (c.val ≤ 'z'.val) ||
      decide ('0'.val ≤ c.val) && decide (c.val ≤ '9'.val) || c == '.' ||
        c == '-') := rfl
  simp only [classes, Bool.or_eq_true, Bool.and_eq_true,
    decide_eq_true_eq, beq_iff_eq, UInt32.le_iff_toNat_le] at allowed
  rcases allowed with (((⟨-, h⟩ | ⟨-, h⟩) | ⟨-, h⟩) | rfl) | rfl
  all_goals first | exact Nat.lt_of_le_of_lt h (by decide) | decide

/-- The host shows a live process, and the bytes of its command's name
with a line feed. -/
def ProcessView.IsNamed (v : ProcessView) (p : Pid) (name : List UInt8) : Prop :=
  0 < p ∧ v.isAlive p = true ∧ v.command p = .ok (name ++ [0x0A])

variable {v : ProcessView} {p : Pid} {name : List UInt8}

/-- The name in a bundle id is not longer than the name it comes from. -/
theorem length_bundleName_le {text : String}
    (read : Text.Utf8.decode (name ++ [0x0A]) = .ok text) :
    (bundleName text.toList).length ≤ name.length := by
  obtain ⟨cs, split, spelled⟩ :=
    Text.Utf8.exists_of_encode_eq_concat (Text.Utf8.decode_eq_ok_iff.mp read)
  have bytes := Text.Utf8.length_le_length_flatMap cs
  rw [spelled] at bytes
  rw [bundleName, List.length_map, split]
  exact Nat.le_trans (length_trim_concat_le rfl) bytes

/-- What is derived for a process with a name: an id that ends with a name no
longer than that, or a failure. -/
theorem ProcessView.derived_of_isNamed (beginning : String)
    (named : v.IsNamed p name) :
    (∃ label, label.length ≤ name.length ∧ (∀ c ∈ label, isBundleChar c = true) ∧
      v.derivedBundle beginning p = .ok (beginning ++ "." ++ String.ofList label)) ∨
    ∃ f ∈ [v.unreadable p "stream did not contain valid UTF-8",
        Failure.notInstrumentable p "empty command name"],
      v.derivedBundle beginning p = .error f := by
  obtain ⟨positive, alive, command⟩ := named
  cases read : Text.Utf8.decode (name ++ [0x0A]) with
  | error f =>
      right
      refine ⟨_, List.mem_cons_self, ?_⟩
      simp [derivedBundle, commandText, positive, alive, command, read]
  | ok text =>
      have short := length_bundleName_le read
      have allowed : ∀ c ∈ bundleName text.toList, isBundleChar c = true :=
        fun c => isBundleChar_of_mem_bundleName
      cases empty : bundleName text.toList with
      | nil =>
          right
          refine ⟨_, List.mem_cons_of_mem _ List.mem_cons_self, ?_⟩
          simp [derivedBundle, commandText, positive, alive, command, read, empty]
      | cons c cs =>
          left
          rw [empty] at short allowed
          refine ⟨c :: cs, short, allowed, ?_⟩
          simp [derivedBundle, commandText, positive, alive, command, read, empty]

end ElementAgent

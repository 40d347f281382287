import ElementAgent.Text.Utf8
import Mathlib.Tactic.SplitIfs

/-!
# Texts survive UTF-8

Main statement: a byte string is read as a text iff it consists of the text's
bytes (`decode_eq_ok_iff`). A character's bytes are read as that character,
whatever follows them (`scan_encodeChar`), and a character is read from its own
bytes only (`flatMap_encodeChar_of_charsFrom`), by the four widths of characters.
-/

namespace ElementAgent.Text.Utf8

/-! ## Bytes -/

theorem toNat_byte {n : Nat} (small : n < 256) : (UInt8.ofNat n).toNat = n := by
  rw [UInt8.toNat_ofNat', Nat.mod_eq_of_lt small]

/-- A continuing byte. -/
def tail (n : Nat) : UInt8 := UInt8.ofNat (n % 64 + 0x80)

theorem toNat_tail (n : Nat) : (tail n).toNat = n % 64 + 0x80 :=
  toNat_byte (by omega)

theorem isTail_tail (n : Nat) : isTail (tail n) = true := by
  simp only [isTail, Bool.and_eq_true, decide_eq_true_eq,
    UInt8.le_iff_toNat_le, toNat_tail]
  constructor
  · show 0x80 ≤ n % 64 + 0x80
    omega
  · show n % 64 + 0x80 ≤ 0xBF
    omega

theorem low6_tail (n : Nat) : low6 (tail n) = n % 64 := by
  rw [low6, toNat_tail]
  omega

/-- A continuing byte is in the range that a lead byte leaves to it. -/
theorem tail_between {n : Nat} {p q : Prop} [Decidable p] [Decidable q]
    {low high : UInt8} (above : p → low.toNat ≤ n % 64 + 0x80)
    (below : q → n % 64 + 0x80 ≤ high.toNat) :
    ((if p then low else 0x80) ≤ tail n && tail n ≤ (if q then high else 0xBF)) =
      true := by
  have least : (0x80 : UInt8).toNat ≤ n % 64 + 0x80 := Nat.le_add_left ..
  have most : n % 64 + 0x80 ≤ (0xBF : UInt8).toNat := by
    show n % 64 + 0x80 ≤ 0xBF
    omega
  simp only [Bool.and_eq_true, decide_eq_true_eq, UInt8.le_iff_toNat_le, toNat_tail]
  constructor
  · split
    · exact above ‹_›
    · exact least
  · split
    · exact below ‹_›
    · exact most

theorem lead_one : ∀ n < 0x80, lead (UInt8.ofNat n) = .single := by decide

theorem lead_two :
    ∀ k < 30, lead (UInt8.ofNat (k + 2 + 0xC0)) = .multi 1 0x80 0xBF := by
  decide

theorem lead_three : ∀ k < 16, lead (UInt8.ofNat (k + 0xE0)) =
    .multi 2 (if k = 0 then 0xA0 else 0x80) (if k = 0xD then 0x9F else 0xBF) := by
  decide

theorem lead_four : ∀ k < 5, lead (UInt8.ofNat (k + 0xF0)) =
    .multi 3 (if k = 0 then 0x90 else 0x80) (if k = 4 then 0x8F else 0xBF) := by
  decide

/-! ## Characters -/

section Widths

variable {n : Nat} {rest : List UInt8}

theorem scan_one (small : n < 0x80) :
    scan (UInt8.ofNat n :: rest) = .char (Char.ofNat n) :: scan rest := by
  rw [scan]
  simp only [lead_one n small]
  rw [toNat_byte (by omega)]

theorem scan_two (low : 0x80 ≤ n) (high : n < 0x800) :
    scan (UInt8.ofNat (n / 64 + 0xC0) :: tail n :: rest) =
      .char (Char.ofNat n) :: scan rest := by
  have lead := lead_two (n / 64 - 2) (by omega)
  rw [show n / 64 - 2 + 2 + 0xC0 = n / 64 + 0xC0 by omega] at lead
  have within : (0x80 ≤ tail n && tail n ≤ 0xBF) = true := isTail_tail n
  have value : (n / 64 + 0xC0) % 32 * 64 + n % 64 = n := by omega
  rw [scan]
  simp only [lead, within, if_true, toNat_byte (show n / 64 + 0xC0 < 256 by omega),
    low6_tail, value]

theorem scan_three (low : 0x800 ≤ n) (high : n < 0x10000)
    (scalar : n < 0xD800 ∨ 0xDFFF < n) :
    scan (UInt8.ofNat (n / 4096 + 0xE0) :: tail (n / 64) :: tail n :: rest) =
      .char (Char.ofNat n) :: scan rest := by
  have lead := lead_three (n / 4096) (by omega)
  have within : ((if n / 4096 = 0 then 0xA0 else 0x80) ≤ tail (n / 64) &&
      tail (n / 64) ≤ (if n / 4096 = 0xD then 0x9F else 0xBF)) = true := by
    -- no shorter spelling, and no surrogate
    refine tail_between (fun none => ?_) fun thirteen => ?_
    · show 0xA0 ≤ n / 64 % 64 + 0x80
      omega
    · show n / 64 % 64 + 0x80 ≤ 0x9F
      omega
  have value : (n / 4096 + 0xE0) % 16 * 4096 + n / 64 % 64 * 64 + n % 64 = n := by
    omega
  rw [scan]
  simp only [lead, within, if_true, isTail_tail, low6_tail,
    toNat_byte (show n / 4096 + 0xE0 < 256 by omega), value]
  rfl

theorem scan_four (low : 0x10000 ≤ n) (high : n < 0x110000) :
    scan (UInt8.ofNat (n / 262144 + 0xF0) :: tail (n / 4096) :: tail (n / 64) ::
      tail n :: rest) =
      .char (Char.ofNat n) :: scan rest := by
  have lead := lead_four (n / 262144) (by omega)
  have within : ((if n / 262144 = 0 then 0x90 else 0x80) ≤ tail (n / 4096) &&
      tail (n / 4096) ≤ (if n / 262144 = 4 then 0x8F else 0xBF)) = true := by
    -- no shorter spelling, and nothing beyond the last character
    refine tail_between (fun none => ?_) fun four => ?_
    · show 0x90 ≤ n / 4096 % 64 + 0x80
      omega
    · show n / 4096 % 64 + 0x80 ≤ 0x8F
      omega
  have value : (n / 262144 + 0xF0) % 8 * 262144 + n / 4096 % 64 * 4096 +
      n / 64 % 64 * 64 + n % 64 =
      n := by omega
  rw [scan]
  simp only [lead, within, if_true, isTail_tail, low6_tail,
    toNat_byte (show n / 262144 + 0xF0 < 256 by omega), value]
  rfl

end Widths

/-- The bytes of a character are read as that character. -/
theorem scan_encodeChar (c : Char) (rest : List UInt8) :
    scan (String.utf8EncodeChar c ++ rest) = .char c :: scan rest := by
  have scalar : c.toNat < 0xD800 ∨ 0xDFFF < c.toNat ∧ c.toNat < 0x110000 := c.valid
  have same : Char.ofNat c.toNat = c := Char.ofNat_toNat c
  have value : c.val.toNat = c.toNat := rfl
  unfold String.utf8EncodeChar
  rw [value]
  generalize c.toNat = n at *
  subst same
  by_cases one : n ≤ 0x7F
  · simp only [if_pos one]
    exact scan_one (by omega)
  by_cases two : n ≤ 0x7FF
  · simp only [if_neg one, if_pos two]
    rw [Nat.mod_eq_of_lt (show n / 64 < 0x20 by omega)]
    exact scan_two (by omega) (by omega)
  by_cases three : n ≤ 0xFFFF
  · simp only [if_neg one, if_neg two, if_pos three]
    rw [Nat.mod_eq_of_lt (show n / 4096 < 0x10 by omega)]
    exact scan_three (by omega) (by omega) (by omega)
  · simp only [if_neg one, if_neg two, if_neg three]
    rw [Nat.mod_eq_of_lt (show n / 262144 < 0x08 by omega)]
    exact scan_four (by omega) (by omega)

theorem scan_flatMap_encodeChar (cs : List Char) :
    scan (cs.flatMap String.utf8EncodeChar) = cs.map .char := by
  induction cs with
  | nil => rfl
  | cons c cs ih => rw [List.flatMap_cons, scan_encodeChar, ih, List.map_cons]

/-- Well-formed pieces are the text they stand for. -/
theorem charsFrom_chars (pos : Nat) (cs : List Char) :
    charsFrom pos (cs.map .char) = .ok cs := by
  induction cs generalizing pos with
  | nil => rfl
  | cons c cs ih => rw [List.map_cons, charsFrom, ih]

/-- The bytes of a text are read as that text. -/
theorem decode_encode (s : String) : decode (encode s) = .ok s := by
  rw [decode, encode, scan_flatMap_encodeChar, charsFrom_chars]
  simp only [String.ofList_toList]

@[simp] theorem encode_append (s t : String) :
    encode (s ++ t) = encode s ++ encode t := by
  simp [encode]

theorem decodeLossy_encode (s : String) : decodeLossy (encode s) = s := by
  have chars : scan (encode s) = s.toList.map .char :=
    scan_flatMap_encodeChar s.toList
  rw [decodeLossy, chars, List.map_map]
  exact (congrArg String.ofList (List.map_id _)).trans String.ofList_toList

/-! ## What is read -/

theorem lt_of_lead_eq_single {a : UInt8} (h : lead a = .single) :
    a.toNat < 0x80 := by
  revert h
  fun_cases lead a with
  | case1 one => exact fun _ => UInt8.lt_iff_toNat_lt.mp one
  | _ => exact nofun

/-- What a lead byte says of itself and of the byte behind it. -/
theorem of_lead_eq_multi {a low high : UInt8} {more : Nat}
    (h : lead a = .multi more low high) :
    0x80 ≤ low.toNat ∧ high.toNat ≤ 0xBF ∧
      (more = 1 ∧ 0xC2 ≤ a.toNat ∧ a.toNat < 0xE0 ∨
        more = 2 ∧ 0xE0 ≤ a.toNat ∧ a.toNat < 0xF0 ∧
          (a.toNat = 0xE0 → 0xA0 ≤ low.toNat) ∧
          (a.toNat = 0xED → high.toNat ≤ 0x9F) ∨
        more = 3 ∧ 0xF0 ≤ a.toNat ∧ a.toNat < 0xF5 ∧
          (a.toNat = 0xF0 → 0x90 ≤ low.toNat) ∧
          (a.toNat = 0xF4 → high.toNat ≤ 0x8F)) := by
  revert h
  fun_cases lead a <;> intro h <;> cases h
  all_goals
    simp only [UInt8.lt_iff_toNat_lt, ← UInt8.toNat_inj, UInt8.reduceToNat,
      true_and] at *
    omega

section Characters

variable {n : Nat} {a b c d : UInt8}

/-- The spelling of the character with a number. -/
theorem encodeChar_ofNat (scalar : n < 0xD800 ∨ 0xDFFF < n ∧ n < 0x110000) :
    String.utf8EncodeChar (Char.ofNat n) =
      if n ≤ 0x7F then [UInt8.ofNat n]
      else if n ≤ 0x7FF then
        [UInt8.ofNat (n / 64 % 32 + 0xC0), UInt8.ofNat (n % 64 + 0x80)]
      else if n ≤ 0xFFFF then
        [UInt8.ofNat (n / 4096 % 16 + 0xE0), UInt8.ofNat (n / 64 % 64 + 0x80),
          UInt8.ofNat (n % 64 + 0x80)]
      else
        [UInt8.ofNat (n / 262144 % 8 + 0xF0), UInt8.ofNat (n / 4096 % 64 + 0x80),
          UInt8.ofNat (n / 64 % 64 + 0x80), UInt8.ofNat (n % 64 + 0x80)] := by
  have valid : n.isValidChar := scalar
  have value : (Char.ofNat n).val.toNat = n := by
    rw [Char.ofNat, dif_pos valid]
    exact UInt32.toNat_ofNatLT ..
  unfold String.utf8EncodeChar
  rw [value]

theorem isTail_iff : isTail b = true ↔ 0x80 ≤ b.toNat ∧ b.toNat ≤ 0xBF := by
  simp only [isTail, Bool.and_eq_true, decide_eq_true_eq, UInt8.le_iff_toNat_le]
  exact Iff.rfl

theorem isTail_of_between {low high : UInt8} (above : 0x80 ≤ low.toNat)
    (below : high.toNat ≤ 0xBF) (within : (low ≤ b && b ≤ high) = true) :
    isTail b = true ∧ low.toNat ≤ b.toNat ∧ b.toNat ≤ high.toNat := by
  simp only [Bool.and_eq_true, decide_eq_true_eq, UInt8.le_iff_toNat_le] at within
  exact ⟨isTail_iff.mpr (by omega), within⟩

/-- The byte of a given value. -/
theorem ofNat_eq (value : n = a.toNat) : UInt8.ofNat n = a := by
  rw [value, UInt8.ofNat_toNat]

theorem encodeChar_one (single : a.toNat < 0x80) :
    String.utf8EncodeChar (Char.ofNat a.toNat) = [a] := by
  rw [encodeChar_ofNat (.inl (by omega)), if_pos (by omega), UInt8.ofNat_toNat]

theorem encodeChar_two (lead : 0xC2 ≤ a.toNat ∧ a.toNat < 0xE0)
    (tail : isTail b = true) :
    String.utf8EncodeChar (Char.ofNat (a.toNat % 32 * 64 + low6 b)) = [a, b] := by
  obtain ⟨above, below⟩ := isTail_iff.mp tail
  unfold low6
  rw [encodeChar_ofNat (.inl (by omega)), if_neg (by omega), if_pos (by omega)]
  rw [ofNat_eq (a := a) (by omega), ofNat_eq (a := b) (by omega)]

theorem encodeChar_three (lead : 0xE0 ≤ a.toNat ∧ a.toNat < 0xF0)
    (second : isTail b = true) (long : a.toNat = 0xE0 → 0xA0 ≤ b.toNat)
    (scalar : a.toNat = 0xED → b.toNat ≤ 0x9F) (tail : isTail c = true) :
    String.utf8EncodeChar
      (Char.ofNat (a.toNat % 16 * 4096 + low6 b * 64 + low6 c)) = [a, b, c] := by
  obtain ⟨above, below⟩ := isTail_iff.mp second
  obtain ⟨above', below'⟩ := isTail_iff.mp tail
  unfold low6
  rw [encodeChar_ofNat (by omega), if_neg (by omega), if_neg (by omega),
    if_pos (by omega)]
  rw [ofNat_eq (a := a) (by omega), ofNat_eq (a := b) (by omega),
    ofNat_eq (a := c) (by omega)]

theorem encodeChar_four (lead : 0xF0 ≤ a.toNat ∧ a.toNat < 0xF5)
    (second : isTail b = true) (long : a.toNat = 0xF0 → 0x90 ≤ b.toNat)
    (last : a.toNat = 0xF4 → b.toNat ≤ 0x8F) (third : isTail c = true)
    (tail : isTail d = true) :
    String.utf8EncodeChar
      (Char.ofNat (a.toNat % 8 * 262144 + low6 b * 4096 + low6 c * 64 + low6 d)) =
        [a, b, c, d] := by
  obtain ⟨above, below⟩ := isTail_iff.mp second
  obtain ⟨above', below'⟩ := isTail_iff.mp third
  obtain ⟨above'', below''⟩ := isTail_iff.mp tail
  unfold low6
  rw [encodeChar_ofNat (by omega), if_neg (by omega), if_neg (by omega),
    if_neg (by omega)]
  rw [ofNat_eq (a := a) (by omega), ofNat_eq (a := b) (by omega),
    ofNat_eq (a := c) (by omega), ofNat_eq (a := d) (by omega)]

end Characters

theorem charsFrom_cons_char {pos : Nat} {c : Char} {ps : List Piece}
    {cs : List Char} (h : charsFrom pos (.char c :: ps) = .ok cs) :
    ∃ rest, cs = c :: rest ∧ charsFrom (pos + c.utf8Size) ps = .ok rest := by
  unfold charsFrom at h
  split at h
  case h_1 rest read => exact ⟨rest, (Except.ok.inj h).symm, read⟩
  case h_2 => cases h

/-- Characters are read from their own bytes only. -/
theorem flatMap_encodeChar_of_charsFrom {pos : Nat} {bs : List UInt8}
    {cs : List Char} (h : charsFrom pos (scan bs) = .ok cs) :
    cs.flatMap String.utf8EncodeChar = bs := by
  fun_induction scan bs generalizing pos cs
  case case1 =>
    cases h
    rfl
  case case2 a rest single ih =>
    obtain ⟨cs, rfl, read⟩ := charsFrom_cons_char h
    rw [List.flatMap_cons, ih read, encodeChar_one (lt_of_lead_eq_single single)]
    rfl
  case case5 a low high b rest within multi ih =>
    obtain ⟨cs, rfl, read⟩ := charsFrom_cons_char h
    obtain ⟨low, high, lead⟩ := of_lead_eq_multi multi
    have tail := isTail_of_between low high within
    rw [List.flatMap_cons, ih read, encodeChar_two (by omega) tail.1]
    rfl
  case case7 a low high b within c rest third multi _ ih =>
    obtain ⟨cs, rfl, read⟩ := charsFrom_cons_char h
    obtain ⟨low, high, lead⟩ := of_lead_eq_multi multi
    obtain ⟨tail, above, below⟩ := isTail_of_between low high within
    rw [List.flatMap_cons, ih read,
      encodeChar_three (by omega) tail (by omega) (by omega) third]
    rfl
  case case9 a more low high multi b within notOne c third notTwo d rest
    fourth ih =>
    obtain ⟨cs, rfl, read⟩ := charsFrom_cons_char h
    obtain ⟨low, high, lead⟩ := of_lead_eq_multi multi
    obtain ⟨tail, above, below⟩ := isTail_of_between low high within
    rw [List.flatMap_cons, ih read,
      encodeChar_four (by omega) tail (by omega) (by omega) third fourth]
    rfl
  -- every other piece is a fault
  all_goals cases h

/-- A byte string is read as a text iff it consists of the text's bytes. -/
theorem decode_eq_ok_iff {bs : List UInt8} {s : String} :
    decode bs = .ok s ↔ encode s = bs := by
  constructor
  · intro h
    unfold decode at h
    split at h
    case h_1 cs read =>
      rw [← Except.ok.inj h, encode, String.toList_ofList]
      exact flatMap_encodeChar_of_charsFrom read
    case h_2 => cases h
  · rintro rfl
    exact decode_encode s

end ElementAgent.Text.Utf8

import ElementAgent.Text.Integer

/-!
# Integers are read back

Main statement (`readInteger_toString`): the decimal text of an integer within the
bounds is read as that integer.
-/

namespace ElementAgent.Text

/-- More digits make no smaller number. -/
theorem le_ofDigitChars (n : Nat) (cs : List Char) :
    n ≤ Nat.ofDigitChars 10 cs n := by
  induction cs generalizing n with
  | nil => exact Nat.le_refl n
  | cons c cs ih =>
      have more := ih (10 * n + (c.toNat - '0'.toNat))
      rw [Nat.ofDigitChars_cons]
      omega

/-- Digits are read as the number they stand for. No beginning of them leaves the
bounds if the whole does not. -/
theorem readDigits_of_isDigit {limit n : Nat} {excess : IntegerFault}
    {cs : List Char} (digits : ∀ c ∈ cs, c.isDigit = true)
    (fits : Nat.ofDigitChars 10 cs n ≤ limit) :
    readDigits limit excess n cs = .ok (Nat.ofDigitChars 10 cs n) := by
  induction cs generalizing n with
  | nil => rfl
  | cons c cs ih =>
      obtain ⟨digit, digits⟩ := List.forall_mem_cons.mp digits
      rw [Nat.ofDigitChars_cons] at fits ⊢
      have within :=
        Nat.le_trans (le_ofDigitChars (10 * n + (c.toNat - '0'.toNat)) cs) fits
      rw [readDigits, if_pos digit]
      simp only [if_pos within]
      exact ih digits fits

theorem isDigit_of_mem_toDigits {n : Nat} :
    ∀ c ∈ Nat.toDigits 10 n, c.isDigit = true :=
  fun _ listed => Nat.isDigit_of_mem_toDigits (by decide) (by decide) listed

theorem readDigits_toDigits {limit n : Nat} (excess : IntegerFault)
    (fits : n ≤ limit) :
    readDigits limit excess 0 (Nat.toDigits 10 n) = .ok n := by
  have value : Nat.ofDigitChars 10 (Nat.toDigits 10 n) 0 = n :=
    Nat.ofDigitChars_ten_toDigits
  rw [readDigits_of_isDigit isDigit_of_mem_toDigits (by rwa [value]), value]

/-- A number starts with a digit. -/
theorem exists_toDigits_eq_cons (n : Nat) :
    ∃ c cs, Nat.toDigits 10 n = c :: cs ∧ c.isDigit = true := by
  cases digits : Nat.toDigits 10 n with
  | nil => exact absurd digits Nat.toDigits_ne_nil
  | cons c cs =>
      exact ⟨c, cs, rfl,
        isDigit_of_mem_toDigits c (by rw [digits]; exact List.mem_cons_self)⟩

/-- The text of an integer within the bounds is read as that integer. -/
theorem readInteger_toString {low high i : Int} (above : low ≤ i)
    (below : i ≤ high) :
    readInteger low high (toString i).toList = .ok i := by
  cases i with
  | ofNat n =>
      obtain ⟨c, cs, digits, digit⟩ := exists_toDigits_eq_cons n
      have text : (toString (Int.ofNat n)).toList = Nat.toDigits 10 n :=
        Nat.toList_repr
      rw [Int.ofNat_eq_natCast] at below
      have value := readDigits_toDigits .tooLarge (show n ≤ high.toNat by omega)
      rw [text]
      rw [digits] at value ⊢
      unfold readInteger
      split
      case h_1 empty => cases empty
      case h_2 sign | h_3 sign | h_4 sign | h_5 sign =>
          -- a sign is no digit
          obtain ⟨rfl, -⟩ := List.cons.inj sign
          cases digit
      case h_6 =>
          rw [value]
          rfl
  | negSucc n =>
      obtain ⟨c, cs, digits, -⟩ := exists_toDigits_eq_cons (n + 1)
      have text : (toString (Int.negSucc n)).toList =
          '-' :: Nat.toDigits 10 (n + 1) := by
        show ("-" ++ (n + 1).repr).toList = _
        rw [String.toList_append, Nat.toList_repr]
        rfl
      have value := readDigits_toDigits .tooSmall (show n + 1 ≤ low.natAbs by omega)
      have negative : low < 0 := by omega
      rw [text, digits, readInteger]
      · rw [if_pos negative, ← digits, value]
        rfl
      · intro sign
        cases sign

end ElementAgent.Text

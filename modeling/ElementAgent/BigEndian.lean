/-!
# Numbers as bytes

Unsigned numbers as bytes, most significant first. Main statements: reading what
was written gives the number back, modulo the width (`ofBigEndian_bigEndian`), and
writing what was read gives the bytes back (`bigEndian_ofBigEndian`).
-/

namespace ElementAgent

/-- How many numbers `width` bytes hold. -/
def byteRange : (width : Nat) → Nat
  | 0 => 1
  | width + 1 => 256 * byteRange width

/-- The last `width` bytes of a number. -/
def bigEndian : (width : Nat) → Nat → List UInt8
  | 0, _ => []
  | width + 1, n => UInt8.ofNat (n / byteRange width) :: bigEndian width n

/-- The number that bytes stand for. -/
def ofBigEndian (bs : List UInt8) : Nat := bs.foldl (fun n b => 256 * n + b.toNat) 0

theorem byteRange_pos (width : Nat) : 0 < byteRange width := by
  induction width with
  | zero => decide
  | succ width ih =>
      rw [byteRange]
      omega

theorem byteRange_add (width more : Nat) :
    byteRange (width + more) = byteRange width * byteRange more := by
  induction width with
  | zero => simp [byteRange]
  | succ width ih => rw [Nat.succ_add, byteRange, ih, byteRange, Nat.mul_assoc]

@[simp] theorem length_bigEndian (width n : Nat) :
    (bigEndian width n).length = width := by
  induction width with
  | zero => rfl
  | succ width ih => simp [bigEndian, ih]

/-- Bytes read behind a number `k` count on from it. -/
theorem foldl_bigEndian (width n k : Nat) :
    (bigEndian width n).foldl (fun n b => 256 * n + b.toNat) k
      = k * byteRange width + n % byteRange width := by
  induction width generalizing k with
  | zero => simp [bigEndian, byteRange, Nat.mod_one]
  | succ width ih =>
    rw [bigEndian, List.foldl_cons, ih]
    have split : n % byteRange (width + 1) =
        n / byteRange width % 256 * byteRange width + n % byteRange width := by
      rw [byteRange, Nat.mul_comm 256, Nat.mod_mul, Nat.add_comm,
        Nat.mul_comm (byteRange width)]
    rw [split, byteRange]
    simp only [UInt8.toNat_ofNat']
    grind

theorem ofBigEndian_bigEndian (width n : Nat) :
    ofBigEndian (bigEndian width n) = n % byteRange width := by
  simp [ofBigEndian, foldl_bigEndian]

/-- Bytes beyond the width do not matter. -/
theorem bigEndian_mod (width n : Nat) :
    bigEndian width (n % byteRange width) = bigEndian width n := by
  suffices general : ∀ more, bigEndian width (n % byteRange (width + more)) =
      bigEndian width n from
    general 0
  induction width with
  | zero => intro more; rfl
  | succ width ih =>
      intro more
      have range : byteRange (width + 1 + more) =
          byteRange width * (256 * byteRange more) := by
        rw [Nat.add_assoc, byteRange_add, Nat.add_comm 1, byteRange]
      have others : bigEndian width (n % byteRange (width + 1 + more)) =
          bigEndian width n := by
        rw [Nat.add_assoc]
        exact ih (1 + more)
      rw [bigEndian, bigEndian, others, range, Nat.mod_mul_right_div_self]
      congr 1
      apply UInt8.toNat_inj.mp
      rw [UInt8.toNat_ofNat', UInt8.toNat_ofNat']
      exact Nat.mod_mul_right_mod _ _ _

theorem ofBigEndian_cons (b : UInt8) (bs : List UInt8) :
    ofBigEndian (b :: bs) = b.toNat * byteRange bs.length + ofBigEndian bs := by
  suffices general : ∀ k, bs.foldl (fun n b => 256 * n + b.toNat) k =
      k * byteRange bs.length + ofBigEndian bs by
        simpa [ofBigEndian] using general b.toNat
  induction bs with
  | nil => simp [ofBigEndian, byteRange]
  | cons c bs ih =>
      intro k
      have first := ih c.toNat
      have next := ih (256 * k + c.toNat)
      simp only [ofBigEndian, List.foldl_cons, List.length_cons, Nat.mul_zero,
        Nat.zero_add, byteRange] at *
      rw [next, first]
      grind

theorem ofBigEndian_lt (bs : List UInt8) :
    ofBigEndian bs < byteRange bs.length := by
  induction bs with
  | nil => decide
  | cons b bs ih =>
      have digit : b.toNat + 1 ≤ 256 := b.toNat_lt
      have room : (b.toNat + 1) * byteRange bs.length ≤ 256 * byteRange bs.length :=
        Nat.mul_le_mul_right _ digit
      rw [ofBigEndian_cons, List.length_cons, byteRange]
      rw [Nat.add_mul, Nat.one_mul] at room
      omega

theorem bigEndian_ofBigEndian (bs : List UInt8) :
    bigEndian bs.length (ofBigEndian bs) = bs := by
  induction bs with
  | nil => rfl
  | cons b bs ih =>
      have lower := ofBigEndian_lt bs
      have top : (b.toNat * byteRange bs.length + ofBigEndian bs) /
          byteRange bs.length = b.toNat := by
        rw [Nat.mul_comm, Nat.mul_add_div (byteRange_pos _), Nat.div_eq_of_lt lower,
          Nat.add_zero]
      rw [ofBigEndian_cons, List.length_cons, bigEndian, top, ← bigEndian_mod,
        Nat.mul_comm, Nat.mul_add_mod, bigEndian_mod, ih]
      simp

end ElementAgent

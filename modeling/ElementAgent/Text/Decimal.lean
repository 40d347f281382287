/-!
# Decimal text of binary64 numbers

A finite binary64 number is written with the fewest digits that read back, the
nearest of those, an exact tie going up; always positionally, and with `.0` when
there is no fraction.

`Binary64` takes a number apart into `m · 2^q`; `shortest` finds the digits in
exact arithmetic: the coarsest decimal grid that has a point among the reals that
round to the number.
-/

namespace ElementAgent.Text

inductive Binary64 where
  | nan
  | infinite (negative : Bool)
  /-- The number `± m · 2^q`. -/
  | finite (negative : Bool) (m : Nat) (q : Int)
  deriving DecidableEq

namespace Binary64

/-- The number of a binary64 bit pattern. -/
def ofBits (w : UInt64) : Binary64 :=
  let bits := w.toNat
  let negative := bits >>> 63 == 1
  let exponent : Nat := (bits >>> 52) % 0x800
  let fraction : Nat := bits % 1 <<< 52
  if exponent = 2047 then
    if fraction = 0 then .infinite negative else .nan
  else if exponent = 0 then .finite negative fraction (-1074)
  else .finite negative (1 <<< 52 + fraction) ((exponent : Int) - 1075)

/-- A number `± m · 2^q` with `m < 2^53`, written with all 53
bits of precision. -/
def widen (negative : Bool) (m : Nat) (q : Int) : Binary64 :=
  let shift := 52 - Nat.log2 m
  if m = 0 then .finite negative 0 (-1074)
  else .finite negative (m <<< shift) (q - shift)

/-- The number of a binary32 bit pattern, which binary64 holds exactly. -/
def ofBits32 (w : UInt32) : Binary64 :=
  let bits := w.toNat
  let negative := bits >>> 31 == 1
  let exponent : Nat := (bits >>> 23) % 0x100
  let fraction : Nat := bits % 1 <<< 23
  if exponent = 255 then
    if fraction = 0 then .infinite negative else .nan
  else if exponent = 0 then widen negative fraction (-149)
  else widen negative (1 <<< 23 + fraction) ((exponent : Int) - 150)

/-- The natural power of two or ten of a signed exponent, one for a
negative exponent. -/
def power (base : Nat) (e : Int) : Nat := Nat.pow base e.toNat

/-- The point of the decimal grid `10^k` nearest to `m · 2^q` among those that
round to it, in units of the grid. In quarters of `2^q`, those reals lie between
`4m - below` and `4m + 2`, where `below` is 1 at a power of two (whose neighbour
below is nearer) and 2 elsewhere; the ends belong to it iff `m` is even. -/
def gridPoint? (m : Nat) (q k : Int) : Option Nat :=
  let below := if m = 1 <<< 52 ∧ q ≠ -1074 then 1 else 2
  let factor := power 2 (q - 2) * power 10 (-k)
  let unit := power 2 (2 - q) * power 10 k
  let value := 4 * m * factor
  let low := (4 * m - below) * factor
  let high := (4 * m + 2) * factor
  let rounds (d : Nat) : Bool :=
    if m % 2 = 0 then low ≤ d * unit && d * unit ≤ high
    else low < d * unit && d * unit < high
  let down := value / unit
  let up := down + 1
  match rounds down, rounds up with
  | false, false => none
  | true, false => some down
  | false, true => some up
  | true, true =>
      if value - down * unit < up * unit - value then some down else some up

/-- The first of `steps` grids from `10^k` downwards that has a point,
with the point. -/
def firstGrid (m : Nat) (q : Int) : (steps : Nat) → (k : Int) → Nat × Int
  | 0, k => (0, k)
  | steps + 1, k =>
    match gridPoint? m q k with
    | some d => (d, k)
    | none => firstGrid m q steps (k - 1)

/-- The shortest decimal `d · 10^k` that rounds to `m · 2^q`. No binary64 number
reaches `10^309`, and the grid `10^-324` has a point for each of them. -/
def shortest (m : Nat) (q : Int) : Nat × Int := firstGrid m q 634 309

/-- The decimal `d · 10^k` written positionally, with at least one digit on each
side of the point. -/
def positional (d : Nat) (k : Int) : String :=
  if 0 ≤ k then toString (d * power 10 k) ++ ".0"
  else
    let places := (-k).toNat
    let digits := (toString d).toList
    let padded := List.replicate (places + 1 - digits.length) '0' ++ digits
    let whole := padded.length - places
    String.ofList (padded.take whole ++ '.' :: padded.drop whole)

def toText : Binary64 → String
  | .nan => "NaN"
  | .infinite negative => if negative then "-inf" else "inf"
  | .finite negative m q =>
    let sign := if negative then "-" else ""
    if m = 0 then sign ++ "0.0"
    else
      let (d, k) := shortest m q
      sign ++ positional d k

end Binary64

end ElementAgent.Text

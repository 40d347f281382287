/-!
# Integers within bounds

Decimal integers with an optional sign, read from left to right within bounds: the
first character that is no digit, or the first digit that leaves the bounds,
decides what is wrong.
-/

namespace ElementAgent.Text

/-- Why a text is no integer within the bounds. -/
inductive IntegerFault where
  | empty
  | invalidDigit
  | tooLarge
  | tooSmall
  deriving DecidableEq

def IntegerFault.message : IntegerFault → String
  | .empty => "cannot parse integer from empty string"
  | .invalidDigit => "invalid digit found in string"
  | .tooLarge => "number too large to fit in target type"
  | .tooSmall => "number too small to fit in target type"

/-- Reads digits behind those that make `n`. A number over `limit` is the
fault `excess`. -/
def readDigits (limit : Nat) (excess : IntegerFault) (n : Nat) :
    List Char → Except IntegerFault Nat
  | [] => .ok n
  | c :: cs =>
    if c.isDigit then
      let n := 10 * n + (c.toNat - '0'.toNat)
      if n ≤ limit then readDigits limit excess n cs else .error excess
    else .error .invalidDigit

/-- Reads an integer between `low` and `high`. A minus sign counts as one only if
`low` is negative. -/
def readInteger (low high : Int) : List Char → Except IntegerFault Int
  | [] => .error .empty
  | ['+'] | ['-'] => .error .invalidDigit
  | '-' :: cs =>
    if low < 0 then (readDigits low.natAbs .tooSmall 0 cs).map fun n => -(n : Int)
    else .error .invalidDigit
  | '+' :: cs => (readDigits high.toNat .tooLarge 0 cs).map Int.ofNat
  | cs => (readDigits high.toNat .tooLarge 0 cs).map Int.ofNat

end ElementAgent.Text

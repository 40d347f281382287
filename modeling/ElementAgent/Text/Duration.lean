/-!
# Durations

A time in milliseconds in words: whole milliseconds below a second, else seconds
with as many decimals as they need.
-/

namespace ElementAgent.Text

/-- The decimals of a number of thousandths, without zeros at the end. -/
def decimals (thousandths : Nat) : List Char :=
  let digits := Nat.toDigits 10 (1000 + thousandths % 1000)
  (digits.tail.reverse.dropWhile (· == '0')).reverse

/-- A duration in words. -/
def duration (ms : Nat) : String :=
  if ms < 1000 then s!"{ms}ms"
  else
    match decimals ms with
    | [] => s!"{ms / 1000}s"
    | ds => s!"{ms / 1000}." ++ String.ofList ds ++ "s"

end ElementAgent.Text

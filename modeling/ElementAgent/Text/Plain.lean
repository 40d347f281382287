/-!
# Plain text

Text without the control characters and control sequences that a terminal would
obey. Messages about the command line are written this way, because they repeat
what the user typed.

A control sequence starts with ESC. What follows decides where it ends: `[`
opens parameters that a character from `@` to `~` closes, some characters open
a string that runs to the next ESC, CAN or SUB, and others are the whole
sequence by themselves.
-/

namespace ElementAgent.Text

/-- Where in a control sequence a character stands. -/
inductive Control where
  /-- In none. -/
  | outside
  /-- Behind ESC. -/
  | escape
  /-- Behind the first of two or more characters. -/
  | intermediate
  /-- Among parameters. -/
  | parameters
  /-- In a string that BEL may close. -/
  | command
  /-- In a string. -/
  | string
  deriving DecidableEq

/-- The control characters that stay in plain text: those that only move on. -/
def isSpacing (c : Char) : Bool :=
  c == '\t' || c == '\n' || c == '\x0c' || c == '\r'

/-- Where the next character stands, and whether this one stays. -/
def Control.next (s : Control) (c : Char) : Control × Bool :=
  let n := c.toNat
  if n = 0x1B then (.escape, false)
  else if n = 0x18 ∨ n = 0x1A then (.outside, false)
  else match s with
    | .outside => (.outside, (0x20 ≤ n && n != 0x7F) || isSpacing c)
    | .command => (if n = 0x07 then .outside else .command, false)
    | .string => (.string, false)
    | s =>
      if isSpacing c then (.outside, true)
      else if n < 0x20 ∨ n = 0x7F then (s, false)
      else if 0x7F < n then (.outside, true)
      else match s with
        | .parameters => (if n < 0x40 then .parameters else .outside, false)
        | .intermediate => (if n < 0x30 then .intermediate else .outside, false)
        | _ =>
          if n < 0x30 then (.intermediate, false)
          else if c == '[' then (.parameters, false)
          else if c == ']' then (.command, false)
          else if c == 'P' || c == 'X' || c == '^' || c == '_' then (.string, false)
          else (.outside, false)

/-- The characters that stay, from a place on. -/
def plainFrom (s : Control) : List Char → List Char
  | [] => []
  | c :: cs =>
    let (s, stays) := s.next c
    if stays then c :: plainFrom s cs else plainFrom s cs

/-- The text without control characters and sequences. -/
def plain (s : String) : String := String.ofList (plainFrom .outside s.toList)

end ElementAgent.Text

import ElementAgent.Text.Utf8

/-!
# Words of the command line

What a word of the command line is by its looks: the mark `--`, a long option with
or without a value, a cluster of short options, or a plain word. A single hyphen
is a plain word.
-/

namespace ElementAgent

/-- A word of the command line. -/
abbrev Word := List UInt8

/-- A word by its looks. -/
inductive Token where
  /-- The mark behind which no option stands. -/
  | mark
  /-- Two hyphens, a name, and perhaps a value behind an equals sign. The name is
  shown as text. -/
  | long (name : String) (value : Option Word)
  /-- One hyphen and something else. -/
  | short (cluster : Word)
  | plain (word : Word)

/-- What a word is by its looks. -/
def Token.ofWord : Word → Token
  | [0x2D, 0x2D] => .mark
  | 0x2D :: 0x2D :: rest =>
    let name := Text.Utf8.decodeLossy (rest.takeWhile (· ≠ 0x3D))
    match rest.dropWhile (· ≠ 0x3D) with
    | [] => .long name none
    | _ :: value => .long name (some value)
  | [0x2D] => .plain [0x2D]
  | 0x2D :: cluster => .short cluster
  | word => .plain word

/-- Digits with at most one point, which is not the first character, and behind it
at most one exponent sign, which is neither the first character nor the last. -/
def isNumeral (word : Word) : Bool :=
  let isDigit (b : UInt8) : Bool := 0x30 ≤ b && b ≤ 0x39
  let whole := word.takeWhile isDigit
  match word.dropWhile isDigit with
  | [] => true
  | 0x2E :: rest =>
    !whole.isEmpty && (match rest.dropWhile isDigit with
      | [] => true
      | 0x65 :: digits => !digits.isEmpty && digits.all isDigit
      | _ => false)
  | 0x65 :: digits => !whole.isEmpty && !digits.isEmpty && digits.all isDigit
  | _ => false

end ElementAgent

import ElementAgent.Text.Hidden

/-!
# Quoted text

The form in which messages show a text that is not theirs: between double
quotes, with a backslash before quotes and backslashes, short forms for NUL,
tab, line feed and carriage return, and the number of every other hidden
character in braces.
-/

namespace ElementAgent.Text

def quotedChar (c : Char) : List Char :=
  match c with
  | '\x00' => ['\\', '0']
  | '\t' => ['\\', 't']
  | '\r' => ['\\', 'r']
  | '\n' => ['\\', 'n']
  | '"' => ['\\', '"']
  | '\\' => ['\\', '\\']
  | c =>
      if isHidden c then ['\\', 'u', '\x7b'] ++ Nat.toDigits 16 c.toNat ++ ['\x7d']
      else [c]

/-- The quoted form of a text. -/
def quoted (s : String) : String :=
  String.ofList ('"' :: (s.toList.flatMap quotedChar ++ ['"']))

end ElementAgent.Text

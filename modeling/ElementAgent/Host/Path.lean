import ElementAgent.Text.Utf8

/-!
# Paths

A path is any string of bytes. Messages show what can be read of it as text.
-/

namespace ElementAgent

abbrev Path := List UInt8

namespace Path

/-- The path that a text spells. -/
def ofText (s : String) : Path := Text.Utf8.encode s

/-- A name in a directory. -/
def join (directory name : Path) : Path :=
  if directory.getLast?.all (· = 0x2F) then directory ++ name
  else directory ++ 0x2F :: name

/-- How messages show a path. -/
def shown (p : Path) : String := Text.Utf8.decodeLossy p

/-- A path fits the address of a socket, which has 107 bytes and a
terminator for it. -/
def fitsAddress (p : Path) : Bool := p.length < 108

end Path

end ElementAgent

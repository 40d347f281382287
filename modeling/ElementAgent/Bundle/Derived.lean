import ElementAgent.Agent
import ElementAgent.Host.Fault
import ElementAgent.Text.Blank
import ElementAgent.Text.Utf8

/-!
# Bundle ids from command names

A live process that is in no directory can still be named: after a fixed beginning
and a dot comes the name of its command, reduced to the characters that bundle ids
are made of. `ProcessView` is what the host shows of its processes;
`derivedBundle` is the rule.
-/

namespace ElementAgent

/-- The characters of bundle ids: ASCII letters and digits, dots and hyphens. -/
def isBundleChar (c : Char) : Bool := c.isAlphanum || c == '.' || c == '-'

/-- A character that stands in a bundle id for another one. -/
def bundleChar (c : Char) : Char := if isBundleChar c then c else '-'

/-- The name that a command goes by in bundle ids: its characters without the
blanks at both ends, and a hyphen for every character that is not allowed. -/
def bundleName (command : List Char) : List Char :=
  (Text.trim command).map bundleChar

structure ProcessView where
  /-- The directory that describes processes, as messages show it. -/
  root : String
  isAlive : Pid → Bool
  /-- The content of the file that holds the name of a process's command. -/
  command : Pid → Except HostFault (List UInt8)

namespace ProcessView

def commandPath (v : ProcessView) (p : Pid) : String := s!"{v.root}/{p}/comm"

/-- Why a file with the name of a command cannot be used. -/
def unreadable (v : ProcessView) (p : Pid) (why : String) : Failure :=
  .notInstrumentable p s!"read {v.commandPath p}: {why}"

def commandText (v : ProcessView) (p : Pid) : Except Failure String :=
  match v.command p with
  | .ok bytes =>
    match Text.Utf8.decode bytes with
    | .ok text => .ok text
    | .error _ => .error (v.unreadable p "stream did not contain valid UTF-8")
  | .error .noEntry => .error (.notInstrumentable p "no command name")
  | .error e => .error (v.unreadable p e.message)

/-- The bundle id derived for a process. Pids that are not positive name groups of
processes, never a process. -/
def derivedBundle (v : ProcessView) (beginning : String) (p : Pid) :
    Except Failure String :=
  if 0 < p ∧ v.isAlive p then
    match v.commandText p with
    | .ok text =>
      match bundleName text.toList with
      | [] => .error (.notInstrumentable p "empty command name")
      | name => .ok (beginning ++ "." ++ String.ofList name)
    | .error f => .error f
  else .error (.processNotFound p)

/-- Deriving a bundle id takes no time. -/
def plan (v : ProcessView) (beginning : String) (p : Pid) : Plan :=
  ⟨some 0, v.derivedBundle beginning p⟩

end ProcessView

end ElementAgent

import ElementAgent.CommandLine.Program

/-!
# The command line

Looks at the surroundings, runs the program on them, prints and exits. The
runtime has no sockets of the local kind: a command whose options are in order
looks at what lies at its path, and goes as far as the host's answer to
dialling or binding there.
-/

namespace ElementAgent

/-- The number of the user, from the host's description of this process. -/
def userNumber : IO String := do
  let status ← try IO.FS.readFile "/proc/self/status" catch _ => pure ""
  let numbers := (status.splitOn "\n").filterMap fun line =>
    match line.splitOn "\t" with
    | "Uid:" :: number :: _ => some number
    | _ => none
  return numbers.headD "0"

/-- What lies at a path, as far as opening it shows. -/
def look (path : Path) : IO Occupant := do
  try
    let _ ← IO.FS.Handle.mk path.shown .read
    return .file
  catch
    | .noFileOrDirectory .. => return .nothing
    | .noSuchThing .. => return .socket none
    | e => return .unreachable (.other (toString e))

/-- The ending of a command that finds a site, on a host without sockets of
the local kind. -/
def endingAt (site : Site) (c : Command) : Ending :=
  match c.run site (.absent .refused) with
  | (.interrupted, _) =>
      .failed (.host (.other "Operation not supported (os error 95)"))
  | (ending, _) => ending

/-- Prints what a run has to say and hands over its exit status. -/
def report (e : Ending) : IO UInt32 := do
  (← IO.getStdout).putStr e.output
  let stderr ← IO.getStderr
  match e.fault? with
  | some fault => stderr.putStrLn s!"fatal: {fault.message}"
  | none => pure ()
  match e.complaint? with
  | some text => stderr.putStrLn text
  | none => pure ()
  return e.status.toUInt32

end ElementAgent

open ElementAgent in
/-- The program. -/
def main (args : List String) : IO UInt32 := do
  let runtimeDirectory ← IO.getEnv "XDG_RUNTIME_DIR"
  let surroundings : Surroundings :=
    ⟨runtimeDirectory.map Path.ofText, ← userNumber⟩
  match Command.ofWords (args.map Text.Utf8.encode) with
  | .error n => report (.notice n)
  | .ok c =>
    let path := c.path surroundings
    report (endingAt (Site.fresh path (← look path)) c)

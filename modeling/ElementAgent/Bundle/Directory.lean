import ElementAgent.Agent

/-!
# Bundle directories

A fixed table of processes and their bundle ids, as a resolver
that answers at once.
-/

namespace ElementAgent

/-- A table of bundle ids. The first entry of a process counts. -/
structure Directory where
  entries : List (Pid × String)

namespace Directory

def empty : Directory := ⟨[]⟩

/-- Enters a bundle id, in front of any earlier one of the process. -/
def enter (d : Directory) (p : Pid) (bundle : String) : Directory :=
  ⟨(p, bundle) :: d.entries⟩

/-- Enters bundle ids one after the other. -/
def ofList (entries : List (Pid × String)) : Directory :=
  entries.foldl (fun d e => d.enter e.1 e.2) empty

def find (d : Directory) (p : Pid) : Except Failure String :=
  match d.entries.lookup p with
  | some bundle => .ok bundle
  | none => .error (.processNotFound p)

/-- A directory answers at once. -/
def plan (d : Directory) (p : Pid) : Plan := ⟨some 0, d.find p⟩

end Directory

end ElementAgent

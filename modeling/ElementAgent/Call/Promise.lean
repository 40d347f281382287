import ElementAgent.Call.Outcome

/-!
# Promised outcomes

A promise links one completer, who may complete it once, to one waiter, who may
take the outcome once. Either side may go away. A promise whose completer went
away without a word comes to a transport error.
-/

namespace ElementAgent

/-- A promised value. -/
structure Promise (α : Type) where
  /-- What the completer said, until the waiter takes it. -/
  value : Option α
  /-- The completer has neither spoken nor gone away. -/
  completerHeld : Bool
  /-- The waiter has neither taken the value nor gone away. -/
  waiterHeld : Bool

namespace Promise

variable {α : Type}

def fresh : Promise α := ⟨none, true, true⟩

/-- The completer says `a` and is used up. The answer tells whether the waiter can
still hear it; none if the completer was used up before. -/
def complete (a : α) (p : Promise α) : Option (Bool × Promise α) :=
  if p.completerHeld then
    some (p.waiterHeld,
      { p with
        value := if p.waiterHeld then some a else none, completerHeld := false })
  else none

/-- The completer goes away in silence; none if it was used up before. -/
def dropCompleter (p : Promise α) : Option (Promise α) :=
  if p.completerHeld then some { p with completerHeld := false } else none

/-- The waiter goes away; none if it was used up before. -/
def dropWaiter (p : Promise α) : Option (Promise α) :=
  if p.waiterHeld then some { p with value := none, waiterHeld := false } else none

inductive Look (α : Type) where
  | pending
  | ready (a : α)
  /-- The completer went away without a word. -/
  | dropped

/-- The waiter looks, and is used up unless the promise is pending; none if it was
used up before. -/
def look (p : Promise α) : Option (Look α × Promise α) :=
  if p.waiterHeld then
    match p.value with
    | some a => some (.ready a, { p with value := none, waiterHeld := false })
    | none =>
      if p.completerHeld then some (.pending, p)
      else some (.dropped, { p with waiterHeld := false })
  else none

end Promise

def Promise.Look.outcome? : Promise.Look Outcome → Option Outcome
  | .pending => none
  | .ready o => some o
  | .dropped => some (.error Disconnect.callDropped.error)

end ElementAgent

/-!
# Names on the command line

The commands and the options with a value, each with its name, and which command
takes which options.
-/

namespace ElementAgent

inductive Verb where
  | serve
  | lookup
  | health
  deriving DecidableEq

namespace Verb

def name : Verb → String
  | .serve => "serve"
  | .lookup => "bundle-id"
  | .health => "health"

def all : List Verb := [.serve, .lookup, .health]

def ofName? (s : String) : Option Verb := all.find? fun v => v.name == s

end Verb

/-- The options with a value. -/
inductive Key where
  | socket
  | replyTimeout
  | bundlePrefix
  | maxInFlight
  | pid
  | timeout
  deriving DecidableEq

namespace Key

def name : Key → String
  | .socket => "socket"
  | .replyTimeout => "reply-timeout-ms"
  | .bundlePrefix => "bundle-prefix"
  | .maxInFlight => "max-in-flight"
  | .pid => "pid"
  | .timeout => "timeout-ms"

/-- How messages refer to the value of an option: its name in capitals. -/
def valueName (k : Key) : String :=
  k.name.map fun c => if c == '-' then '_' else c.toUpper

/-- How messages refer to an option. -/
def shown (k : Key) : String := s!"--{k.name} <{k.valueName}>"

end Key

def Verb.keys : Verb → List Key
  | .serve => [.socket, .replyTimeout, .bundlePrefix, .maxInFlight]
  | .lookup => [.pid, .socket, .timeout]
  | .health => [.socket, .timeout]

def Verb.key? (v : Verb) (s : String) : Option Key :=
  v.keys.find? fun k => k.name == s

end ElementAgent

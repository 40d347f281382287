import ElementAgent.CommandLine.Options
import ElementAgent.CommandLine.Token
import ElementAgent.CommandLine.Key

/-!
# Writing the command line

The words that spell a command: its name, and behind it options in any order, each
as one word with an equals sign or as two words. `Spelling.words` writes them;
`Spelling.Spells` says when they leave no doubt: each option once, every option
there whose value is not the usual one, and two words only where the value does
not look like an option.
-/

namespace ElementAgent

namespace Command

def verb : Command → Verb
  | .serve _ => .serve
  | .lookup _ => .lookup
  | .health _ => .health

/-- The value of an option as a word; none if the command has no such option, or
no socket is named. -/
def value? : Command → Key → Option Word
  | .serve o, .socket => o.socket
  | .serve o, .replyTimeout =>
      some (Text.Utf8.encode (toString o.replyTimeout.toNat))
  | .serve o, .bundlePrefix => some (Text.Utf8.encode o.bundlePrefix)
  | .serve o, .maxInFlight => some (Text.Utf8.encode (toString o.maxInFlight.toNat))
  | .lookup o, .pid => some (Text.Utf8.encode (toString o.pid.toInt))
  | .lookup o, .socket => o.socket
  | .lookup o, .timeout => some (Text.Utf8.encode (toString o.timeout.toNat))
  | .health o, .socket => o.socket
  | .health o, .timeout => some (Text.Utf8.encode (toString o.timeout.toNat))
  | _, _ => none

/-- The option has the value that holds if nothing is said. -/
def isUsual : Command → Key → Bool
  | .serve o, .socket => o.socket.isNone
  | .serve o, .replyTimeout => o.replyTimeout = ({} : ServeOptions).replyTimeout
  | .serve o, .bundlePrefix => o.bundlePrefix = ({} : ServeOptions).bundlePrefix
  | .serve o, .maxInFlight => o.maxInFlight = ({} : ServeOptions).maxInFlight
  | .lookup _, .pid => false
  | .lookup o, .socket => o.socket.isNone
  | .lookup o, .timeout => o.timeout = ({ pid := o.pid } : LookupOptions).timeout
  | .health o, .socket => o.socket.isNone
  | .health o, .timeout => o.timeout = ({} : HealthOptions).timeout
  | _, _ => true

end Command

inductive Style where
  /-- One word with an equals sign. -/
  | joined
  /-- Two words. -/
  | apart
  deriving DecidableEq

/-- Which options are written, in which order, and how. -/
abbrev Spelling := List (Key × Style)

namespace Spelling

/-- The words of one option. -/
def optionWords (k : Key) (value : Word) : Style → List Word
  | .joined => [Text.Utf8.encode s!"--{k.name}=" ++ value]
  | .apart => [Text.Utf8.encode s!"--{k.name}", value]

def words (s : Spelling) (c : Command) : List Word :=
  Text.Utf8.encode c.verb.name ::
    s.flatMap fun (k, style) =>
      match c.value? k with
      | some value => optionWords k value style
      | none => []

/-- The words leave no doubt about the command. -/
structure Spells (s : Spelling) (c : Command) : Prop where
  /-- No option is written twice. -/
  once : (s.map Prod.fst).Nodup
  /-- Every option that is written has a value. -/
  present : ∀ k style, (k, style) ∈ s → (c.value? k).isSome
  /-- An option with an unusual value is written. -/
  complete : ∀ k ∈ c.verb.keys, c.isUsual k = false → k ∈ s.map Prod.fst
  /-- A value that looks like an option is joined to its name,
  unless it is a pid. -/
  clear : ∀ k, (k, Style.apart) ∈ s → k ≠ .pid →
    (c.value? k).bind List.head? ≠ some 0x2D
  /-- A named socket is not empty. -/
  path : c.socket ≠ some []

end Spelling

end ElementAgent

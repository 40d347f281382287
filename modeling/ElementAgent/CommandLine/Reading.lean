import ElementAgent.CommandLine.Notice
import ElementAgent.CommandLine.Options
import ElementAgent.CommandLine.Token

/-!
# Reading the command line

Words are taken from left to right. The value of an option is looked at when the
next option begins, or at the end; until then a word without a place goes before
it. Help and version answer at once.
-/

namespace ElementAgent

structure Draft where
  socket : Option Path
  replyTimeout : Option UInt64
  bundlePrefix : Option String
  maxInFlight : Option UInt64
  pid : Option Pid
  timeout : Option UInt64

namespace Draft

def empty : Draft := ⟨none, none, none, none, none, none⟩

def has (d : Draft) : Key → Bool
  | .socket => d.socket.isSome
  | .replyTimeout => d.replyTimeout.isSome
  | .bundlePrefix => d.bundlePrefix.isSome
  | .maxInFlight => d.maxInFlight.isSome
  | .pid => d.pid.isSome
  | .timeout => d.timeout.isSome

def readText (value : Word) : Except UsageFault String :=
  match Text.Utf8.decode value with
  | .ok s => .ok s
  | .error _ => .error .notText

/-- Reads a value as a count. -/
def readCount (k : Key) (value : Word) : Except UsageFault UInt64 := do
  let s ← readText value
  match Text.readInteger 0 0xffffffffffffffff s.toList with
  | .ok n => .ok (UInt64.ofNat n.toNat)
  | .error e => .error (.badValue k s (.integer e))

/-- Reads a value as a pid. It is read as a longer integer first. -/
def readPid (k : Key) (value : Word) : Except UsageFault Pid := do
  let s ← readText value
  match Text.readInteger (-0x8000000000000000) 0x7fffffffffffffff s.toList with
  | .ok n =>
    if -0x80000000 ≤ n ∧ n ≤ 0x7fffffff then .ok (Int32.ofInt n)
    else .error (.badValue k s (.outside n))
  | .error e => .error (.badValue k s (.integer e))

/-- Reads a value as a path. -/
def readPath (k : Key) (value : Word) : Except UsageFault Path :=
  if value.isEmpty then .error (.missingValue k) else .ok value

def enter (d : Draft) (k : Key) (value : Word) : Except UsageFault Draft :=
  if d.has k then .error (.repeated k)
  else match k with
    | .socket => do return { d with socket := some (← readPath k value) }
    | .replyTimeout =>
        do return { d with replyTimeout := some (← readCount k value) }
    | .bundlePrefix => do return { d with bundlePrefix := some (← readText value) }
    | .maxInFlight => do return { d with maxInFlight := some (← readCount k value) }
    | .pid => do return { d with pid := some (← readPid k value) }
    | .timeout => do return { d with timeout := some (← readCount k value) }

/-- The command that a complete draft describes. -/
def command (d : Draft) : Verb → Except UsageFault Command
  | .serve =>
    let o : ServeOptions := {}
    .ok (.serve
      { socket := d.socket
        replyTimeout := d.replyTimeout.getD o.replyTimeout
        bundlePrefix := d.bundlePrefix.getD o.bundlePrefix
        maxInFlight := d.maxInFlight.getD o.maxInFlight })
  | .lookup =>
    match d.pid with
    | some pid =>
      let o : LookupOptions := { pid }
      .ok (.lookup { o with
        socket := d.socket, timeout := d.timeout.getD o.timeout })
    | none => .error (.missingOption .pid)
  | .health =>
    let o : HealthOptions := {}
    .ok (.health { socket := d.socket, timeout := d.timeout.getD o.timeout })

end Draft

/-- The option that was begun last. -/
inductive Pending where
  | nothing
  /-- It has no value yet. -/
  | awaiting (key : Key)
  /-- Its value has not been looked at. -/
  | holding (key : Key) (value : Word)

/-- A reader of a command's options between two words. -/
structure OptionReader where
  verb : Verb
  draft : Draft
  pending : Pending

namespace OptionReader

def start (v : Verb) : OptionReader := ⟨v, .empty, .nothing⟩

def settle (r : OptionReader) : Except UsageFault Draft :=
  match r.pending with
  | .nothing => .ok r.draft
  | .awaiting k => .error (.missingValue k)
  | .holding k value => r.draft.enter k value

def step (r : OptionReader) : Token → Except Notice OptionReader
  | .mark => .ok r
  | .long name value =>
    match r.verb.key? name, value with
    | some k, none => do
      let draft ← r.settle.mapError .fault
      return { r with draft, pending := .awaiting k }
    | some k, some value => do
      let draft ← (r.settle.bind (·.enter k value)).mapError .fault
      return { r with draft, pending := .nothing }
    | none, value =>
      if name == "help" then
        match value with
        | none => do
          let _ ← r.settle.mapError .fault
          .error (.help (.command r.verb))
        | some value =>
            .error (.fault (.surplusValue name (Text.Utf8.decodeLossy value)))
      else .error (.fault (.unexpected s!"--{name}"))
  | .short cluster =>
    match r.pending, isNumeral cluster with
    | .awaiting .pid, true =>
        .ok { r with pending := .holding .pid (0x2D :: cluster) }
    | _, _ =>
      match Text.Utf8.scan cluster with
      | .char 'h' :: _ => do
        let _ ← r.settle.mapError .fault
        .error (.help (.command r.verb))
      | .char c :: _ => .error (.fault (.unexpected s!"-{c}"))
      | _ => .error (.fault (.unexpected s!"-{Text.Utf8.decodeLossy cluster}"))
  | .plain word =>
    match r.pending with
    | .awaiting k => .ok { r with pending := .holding k word }
    | _ => .error (.fault (.unexpected (Text.Utf8.decodeLossy word)))

/-- Takes the rest of the words. No command takes words behind the mark `--`. -/
def read (r : OptionReader) : List Word → Except Notice Command
  | [] => (r.settle.bind (·.command r.verb)).mapError .fault
  | w :: ws =>
    match Token.ofWord w, ws with
    | .mark, word :: _ => .error (.fault (.unexpected (Text.Utf8.decodeLossy word)))
    | t, ws =>
      match r.step t with
      | .ok r => r.read ws
      | .error n => .error n

end OptionReader

namespace Command

/-- The page of help that words ask for. -/
def readHelp : List Word → Notice
  | [] => .help .general
  | w :: ws =>
    let name := Text.Utf8.decodeLossy w
    let page : Option Page :=
      if name == "help" then some .help else (Verb.ofName? name).map .command
    match page, ws with
    | some page, [] => .help page
    | some _, w :: _ => .fault (.unknownCommand (Text.Utf8.decodeLossy w))
    | none, _ => .fault (.unknownCommand name)

/-- A name that stands for a command or for help. -/
def isName (s : String) : Bool := s == "help" || (Verb.ofName? s).isSome

/-- The command that the words of a command line describe, or what
is said instead. -/
def ofWords : List Word → Except Notice Command
  | [] => .error .idle
  | w :: ws =>
    match Token.ofWord w with
    | .mark =>
      match ws with
      | [] => .error .idle
      | word :: _ =>
        let shown := Text.Utf8.decodeLossy word
        .error (.fault
          (if isName shown then .unexpected shown else .unknownCommand shown))
    | .long name value =>
      match (if name == "help" then some (.help .general) else
          if name == "version" then some .version else none), value with
      | some n, none => .error n
      | some _, some value =>
          .error (.fault (.surplusValue name (Text.Utf8.decodeLossy value)))
      | none, _ => .error (.fault (.unexpected s!"--{name}"))
    | .short cluster =>
      match Text.Utf8.scan cluster with
      | .char 'h' :: _ => .error (.help .general)
      | .char 'V' :: _ => .error .version
      | .char c :: _ => .error (.fault (.unexpected s!"-{c}"))
      | _ => .error (.fault (.unexpected s!"-{Text.Utf8.decodeLossy cluster}"))
    | .plain word =>
      let name := Text.Utf8.decodeLossy word
      match Verb.ofName? name with
      | some v => (OptionReader.start v).read ws
      | none =>
          .error (if name == "help" then readHelp ws
            else .fault (.unknownCommand name))

end Command

end ElementAgent

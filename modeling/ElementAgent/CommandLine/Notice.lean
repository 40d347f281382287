import ElementAgent.CommandLine.Key
import ElementAgent.Text.Integer
import ElementAgent.Text.Plain

/-!
# Notices

What the program says instead of running a command: pages of help, its version, or
what is wrong with the command line.
-/

namespace ElementAgent

inductive Page where
  | general
  | command (verb : Verb)
  /-- The page about help itself. -/
  | help
  deriving DecidableEq

namespace Page

def generalLines : List String := [
  "Remote UI element bundle-id agent",
  "",
  "Usage: idc-remote <COMMAND>",
  "",
  "Commands:",
  "  serve      Run the agent that answers bundle-id requests",
  "  bundle-id  Ask a running agent for the bundle id of a process",
  "  health     Check that an agent is serving; prints `ok`",
  "  help       Print this message or the help of the given subcommand(s)",
  "",
  "Options:",
  "  -h, --help     Print help",
  "  -V, --version  Print version"]

def serveLines : List String := [
  "Run the agent that answers bundle-id requests",
  "",
  "Usage: idc-remote serve [OPTIONS]",
  "",
  "Options:",
  "      --socket <SOCKET>",
  "          Unix socket to listen on",
  "      --reply-timeout-ms <REPLY_TIMEOUT_MS>",
  "          Per-request lookup deadline in milliseconds [default: 5000]",
  "      --bundle-prefix <BUNDLE_PREFIX>",
  "          Reverse-DNS prefix for derived bundle ids [default: local.process]",
  "      --max-in-flight <MAX_IN_FLIGHT>",
  "          Concurrent lookups allowed per controller connection [default: 64]",
  "  -h, --help",
  "          Print help"]

def lookupLines : List String := [
  "Ask a running agent for the bundle id of a process",
  "",
  "Usage: idc-remote bundle-id [OPTIONS] --pid <PID>",
  "",
  "Options:",
  "      --pid <PID>                Process id to resolve",
  "      --socket <SOCKET>          Unix socket of the agent",
  "      --timeout-ms <TIMEOUT_MS>  How long to wait for the reply, in milliseconds [default: 3000]",
  "  -h, --help                     Print help"]

def healthLines : List String := [
  "Check that an agent is serving; prints `ok`",
  "",
  "Usage: idc-remote health [OPTIONS]",
  "",
  "Options:",
  "      --socket <SOCKET>          Unix socket of the agent",
  "      --timeout-ms <TIMEOUT_MS>  How long to wait for the agent, in milliseconds [default: 3000]",
  "  -h, --help                     Print help"]

def helpLines : List String := [
  "Print this message or the help of the given subcommand(s)",
  "",
  "Usage: idc-remote help [COMMAND]...",
  "",
  "Arguments:",
  "  [COMMAND]...  Print help for the subcommand(s)"]

def lines : Page → List String
  | .general => generalLines
  | .command .serve => serveLines
  | .command .lookup => lookupLines
  | .command .health => healthLines
  | .help => helpLines

/-- The text of a page. Every line is ended. -/
def text (p : Page) : String := String.join (p.lines.map (· ++ "\n"))

end Page

inductive ValueFault where
  | integer (fault : Text.IntegerFault)
  /-- The number is no pid. -/
  | outside (value : Int)
  deriving DecidableEq

def ValueFault.message : ValueFault → String
  | .integer fault => fault.message
  | .outside value => s!"{value} is not in -2147483648..=2147483647"

/-- What is wrong with a command line. Words are shown as far as they are text. -/
inductive UsageFault where
  | unexpected (shown : String)
  | unknownCommand (shown : String)
  /-- An option that has to be there is not. -/
  | missingOption (key : Key)
  | missingValue (key : Key)
  | badValue (key : Key) (shown : String) (fault : ValueFault)
  | repeated (key : Key)
  /-- An option that takes no value has one. -/
  | surplusValue (name shown : String)
  /-- A value that should be text is not UTF-8. -/
  | notText
  deriving DecidableEq

def UsageFault.message : UsageFault → String
  | .unexpected shown => s!"unexpected argument '{shown}' found"
  | .unknownCommand shown => s!"unrecognized subcommand '{shown}'"
  | .missingOption _ => "the following required arguments were not provided:"
  | .missingValue key =>
      s!"a value is required for '{key.shown}' but none was supplied"
  | .badValue key shown fault =>
    s!"invalid value '{shown}' for '{key.shown}': {fault.message}"
  | .repeated key => s!"the argument '{key.shown}' cannot be used multiple times"
  | .surplusValue name shown =>
    s!"unexpected value '{shown}' for '--{name}' found; no more were expected"
  | .notText => "invalid UTF-8 was detected in one or more arguments"

/-- What is said instead of running a command. -/
inductive Notice where
  | help (page : Page)
  | version
  /-- Nothing was asked for. -/
  | idle
  | fault (fault : UsageFault)
  deriving DecidableEq

namespace Notice

/-- The line that names a fault: what stands in front of the first line feed. -/
def headline (f : UsageFault) : String :=
  String.ofList ((Text.plain s!"error: {f.message}").toList.takeWhile (· ≠ '\n'))

/-- The text of a notice; of a fault, its headline. -/
def text : Notice → String
  | help page => page.text
  | version => "idc-remote 0.1.0\n"
  | idle => Page.general.text
  | fault f => headline f

/-- The user asked for the notice. -/
def isAnswer : Notice → Bool
  | help _ | version => true
  | idle | fault _ => false

end Notice

end ElementAgent

import ElementAgent.CommandLine.OneShot
import ElementAgent.CommandLine.Reading

/-!
# The program

A run from the words of the command line to its ending: a command meets the
other side at the site of a socket. An agent that starts serves until the
user interrupts it.
-/

namespace ElementAgent

/-- What answers at a site: the far end, if there is one that can be dialled. -/
def Site.reach (s : Site) (peer : Peer) : Peer :=
  match s.dial with
  | .ok () => peer
  | .error fault => .absent fault

namespace Command

/-- Where a command meets the other side. -/
def path (s : Surroundings) (c : Command) : Path := s.socketPath c.socket

def run (site : Site) (peer : Peer) : Command → Ending × Site
  | .serve o =>
    match o.start site with
    | (.ok (), started) => (.interrupted, started.stop site.bound)
    | (.error fault, site) => (.failed fault, site)
  | .lookup o => (.ofResult (o.run site.path (site.reach peer)), site)
  | .health o => (.ofResult (o.run site.path (site.reach peer)), site)

end Command

/-- Runs the program. The site comes back as the command leaves it, if
there is a command. -/
def runProgram (s : Surroundings) (siteAt : Path → Site) (peer : Peer)
    (words : List Word) :
    Ending × Option Site :=
  match Command.ofWords words with
  | .error n => (.notice n, none)
  | .ok c =>
    let (ending, site) := c.run (siteAt (c.path s)) peer
    (ending, some site)

end ElementAgent

import SecureDigital.Console.Level
import SecureDigital.Text.Radix

/-!
# The console

A `Console` prints records as lines `[stamp] [tag] message` to its sink. `record` draws one time
stamp for a record that passes the filter and none for one that does not. A sink may log records of
its own before it prints a line; those are stamped later than the record they interrupt and are
printed before it.

`install` sets the sink even where it then fails because a console is installed already.
-/

namespace SecureDigital

structure Record where
  level : Level
  message : String

structure Sink where
  mark : String
  /-- The records the sink logs before it prints a line: the first list for a record from outside,
  the next for a record of the first list, and so on; past the last list it logs none. -/
  interjections : List (List Record)

/-- A source of time stamps, `step` apart. -/
structure Ticker where
  next : UInt64
  step : UInt64

structure Console where
  installed : Bool
  sink : Option Sink
  ticker : Option Ticker
  filter : Filter
  lines : List String

inductive InstallError
  | alreadyInstalled

def InstallError.message : InstallError → String
  | alreadyInstalled =>
    "attempted to set a logger after the logging system was already initialized"

namespace Console

def absent : Console := ⟨false, none, none, none, []⟩

def line (stamp : UInt64) (r : Record) : String :=
  let column := Text.padLeft 10 ' ' (toString stamp)
  s!"[{column}] [{r.level.tag}] {r.message}\n"

/-- The next time stamp, 0 without a source. -/
def draw (c : Console) : UInt64 × Console :=
  match c.ticker with
  | none => (0, c)
  | some t => (t.next, { c with ticker := some { t with next := t.next + t.step } })

def print (c : Console) (text : String) : Console := { c with lines := c.lines ++ [text] }

def enabled (c : Console) (l : Level) : Bool := c.installed && c.filter.admits l

/-- Logs `r`, where the sink logs `interjections` on the way. -/
def emit : List (List Record) → Console → Record → Console
  | interjections, c, r =>
    match c.sink with
    | none => c
    | some sink =>
      if c.enabled r.level then
        let (stamp, c) := c.draw
        let c := match interjections with
          | [] => c
          | first :: deeper => first.foldl (emit deeper) c
        c.print (sink.mark ++ line stamp r)
      else c

def record (c : Console) (r : Record) : Console :=
  match c.sink with
  | none => c
  | some sink => emit sink.interjections c r

/-- Sends the lines to `sink` from now on and, the first time, opens the console down to debug. -/
def install (c : Console) (sink : Sink) : Except InstallError Unit × Console :=
  let c := { c with sink := some sink }
  if c.installed then (.error .alreadyInstalled, c)
  else (.ok (), { c with installed := true, filter := some .debug })

def setFilter (c : Console) (f : Filter) : Console := { c with filter := f }

def setTicker (c : Console) (t : Ticker) : Console := { c with ticker := some t }

def flush (c : Console) : List String × Console := (c.lines, { c with lines := [] })

end Console

end SecureDigital

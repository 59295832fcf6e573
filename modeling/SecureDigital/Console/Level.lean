/-!
# Levels of notices

`Level` says how grave a notice is. A `Filter` lets through every level up to a given one;
`none` silences all.
-/

namespace SecureDigital

inductive Level
  | error
  | warn
  | info
  | debug
  | trace
deriving DecidableEq

namespace Level

/-- The gravest level has the lowest rank, 1. -/
def rank : Level → Nat
  | error => 1
  | warn => 2
  | info => 3
  | debug => 4
  | trace => 5

def name : Level → String
  | error => "ERROR"
  | warn => "WARN"
  | info => "INFO"
  | debug => "DEBUG"
  | trace => "TRACE"

def colour : Level → Nat
  | error => 31
  | warn => 33
  | info => 32
  | debug => 34
  | trace => 35

/-- The coloured name, made up to five columns with blanks. -/
def tag (l : Level) : String :=
  s!"\x1b[{l.colour}m{l.name}\x1b[0m" ++ String.ofList (List.replicate (5 - l.name.length) ' ')

end Level

/-- The gravity down to which notices pass: `none` lets nothing through. -/
abbrev Filter := Option Level

namespace Filter

def rank : Filter → Nat
  | none => 0
  | some l => l.rank

def name : Filter → String
  | none => "OFF"
  | some l => l.name

def admits (f : Filter) (l : Level) : Bool := l.rank ≤ f.rank

end Filter

end SecureDigital

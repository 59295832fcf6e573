import SecureDigital.Command
import SecureDigital.Driver

/-!
# Running one command

`Command.execute` writes the argument, sets up the DMA unit of the data phase, launches the command
and waits for its phases, each under its poll limit. The response is read whether the command phase
succeeded or not; the data phase is awaited only if it did. A phase that is polled out counts as
timed out.
-/

namespace SecureDigital

variable {σ : Type} [Device σ]

namespace Phase

def register : Phase → StatusRegister
  | command => .cmdEvent
  | data => .dataEvent

def limit (config : Config) : Phase → PollLimit
  | command => config.cmdPoll
  | data => config.dataPoll

/-- Reads the phase's event once; `none` while the phase runs. -/
def probe (phase : Phase) : Driver σ (Option Status) := do
  let word ← Driver.read phase.register
  return Status.ofEvent? phase (Event.ofWord word)

def await (config : Config) (phase : Phase) : Driver σ Status := do
  match ← (phase.limit config).poll phase.probe with
  | some status => return status
  | none =>
    Driver.note (.pollExhausted phase.register)
    return .timeout

end Phase

namespace Command

def arm (c : Command) : Driver σ Unit :=
  match c.transfer with
  | .none => pure ()
  | .read dest => do
    Driver.write .blockSize c.blockSize
    Driver.write .blockCount c.blockCount
    Driver.write .writerAddress dest
  | .write src => do
    Driver.write .blockSize c.blockSize
    Driver.write .blockCount c.blockCount
    Driver.write .readerAddress src
    Driver.write .readerLength c.dataLength

def collect : ResponseKind → Driver σ Response
  | .none => pure Response.zero
  | .short | .long => do
    let w₀ ← Driver.read (.response 0)
    let w₁ ← Driver.read (.response 1)
    let w₂ ← Driver.read (.response 2)
    let w₃ ← Driver.read (.response 3)
    return #v[w₀, w₁, w₂, w₃]

def finish (config : Config) (c : Command) : Driver σ Status :=
  if c.hasData then do
    let status ← Phase.await config .data
    Driver.notes (if status = .ok then [] else [.dataFailed c.index status])
    return status
  else return .ok

def execute (config : Config) (c : Command) : Driver σ Reply := do
  Driver.note (.issued c.index c.argument)
  Driver.write .argument c.argument
  c.arm
  Driver.write .command c.word
  let commandStatus ← Phase.await config .command
  let response ← collect c.response
  if commandStatus = .ok then
    let status ← c.finish config
    return { status, commandStatus, response }
  else
    Driver.note (.commandFailed c.index commandStatus)
    return { status := commandStatus, commandStatus, response }

end Command

end SecureDigital

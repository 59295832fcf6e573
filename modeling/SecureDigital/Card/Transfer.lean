import SecureDigital.Command.Execute

/-!
# Moving single blocks and asking for the status

A block that is read has arrived when the data phase ends. A block that is written has left only when
the DMA reader's latch says so, so `Card.writeBlock` waits for that as well, under its own poll limit,
unless the command itself failed: then the reader may never start.
-/

namespace SecureDigital.Card

variable {σ : Type} [Device σ]

/-- Waits for the DMA reader's latch; `none` if the limit is reached. -/
def awaitDrained (config : Config) : Driver σ (Option Unit) :=
  config.dmaPoll.poll do
    let latch ← Driver.read .readerDone
    return if latch = 0 then none else some ()

def readBlock (card : Card) (block dest : UInt32) : Driver σ Status := do
  Driver.note (.readingBlock block dest)
  let command := Command.of .readSingleBlock (card.dataAddress block) .short
  let reply ← (command.withRead dest blockSize).execute card.config
  return reply.status

def writeBlock (card : Card) (block src : UInt32) : Driver σ Status := do
  Driver.note (.writingBlock block src)
  let command := Command.of .writeSingleBlock (card.dataAddress block) .short
  let reply ← (command.withWrite src blockSize).execute card.config
  if reply.commandStatus = .ok then
    match ← awaitDrained card.config with
    | some () => return reply.status
    | none =>
      Driver.note (.readerStuck block)
      return .timeout
  else
    Driver.note (.writeFailed block reply.commandStatus)
    return reply.commandStatus

def sendStatus (card : Card) : Driver σ (Except Error CardStatus) := do
  let reply ← (Command.of .sendStatus card.session.addressArgument .short).execute card.config
  return (reply.status.check .command).map fun _ => ⟨reply.short⟩

end SecureDigital.Card

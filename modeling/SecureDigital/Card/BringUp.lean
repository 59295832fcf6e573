import SecureDigital.Clock.Program
import SecureDigital.Command.Execute

/-!
# Bringing a card up

`Card.bringUp` takes a card from power-on to the transfer state in a fixed order of stages, each a
function on the `Card` known so far. Only the power-up loop can stop it; what else fails is noted and
skipped, unless the configuration says to abort.
-/

namespace SecureDigital.Card

variable {σ : Type} [Device σ]

/-- Argument of SEND_IF_COND: 2.7 to 3.6 V, and a pattern that the card echoes. -/
def interfaceCondition : UInt32 := 0x1AA

/-- Argument of SD_SEND_OP_COND: the whole voltage window, and that the host takes high capacity. -/
def operatingCondition : UInt32 := 0x70FF8000

def fourBitBus : UInt32 := 2

def switchStatusSize : UInt32 := 64

def scrSize : UInt32 := 8

/-- The function group of the access mode, counted from 0. -/
def accessModeGroup : Fin 6 := 0

/-- The function group of the driver strength, counted from 0. -/
def driverStrengthGroup : Fin 6 := 2

/-- Argument of SWITCH_FUNC that switches one group to `function` and keeps the others: a nibble for
each group, `0xF` for those that stay. -/
def switchArgument (group : Fin 6) (function : BitVec 4) : UInt32 :=
  let shift := UInt32.ofNat (4 * group.val)
  0x80000000 ||| (0x00FFFFFF &&& ~~~((0xF : UInt32) <<< shift)) |||
    (UInt32.ofNat function.toNat <<< shift)

/-- Runs a command of the bring-up under the configured policy for failures. -/
def step (config : Config) (c : Command) : Fallible σ Reply := do
  let reply ← .lift (c.execute config)
  if reply.status = .ok then return reply
  else
    match config.stepPolicy with
    | .proceed =>
      .lift <| Driver.note (.stepSkipped c.index reply.status)
      return reply
    | .abort =>
      .lift <| Driver.note (.stepAborted c.index reply.status)
      throw (.stepFailed c.index reply.status)

/-- Runs an application command: APP_CMD for this card, then `c`. -/
def applicationStep (card : Card) (c : Command) : Fallible σ Reply := do
  let _ ← step card.config (.of .appCmd card.session.addressArgument .short)
  step card.config c

def prepare (config : Config) : Driver σ Unit := do
  Driver.write .cmdTimeout config.controllerTimeoutCycles
  Driver.write .dataTimeout config.controllerTimeoutCycles
  let _ ← Clock.program config.initClockKhz
  Timer.delay config.sysClkHz 1

def reset (card : Card) : Fallible σ Card := do
  .lift <| Driver.note (.sending .goIdleState)
  let _ ← step card.config (.of .goIdleState 0 .none)
  .lift <| Driver.note (.sending .sendIfCond)
  let reply ← step card.config (.of .sendIfCond interfaceCondition .short)
  let echoed := reply.onSuccess Reply.short
  .lift <| Driver.notes
    ((echoed.filter (· &&& 0xFFF ≠ interfaceCondition)).toList.map .interfaceMismatch)
  return card.inState .readyWait

/-- One round of the power-up loop: the word that reports power-up, or a delay. -/
def powerUpRound (config : Config) : Driver σ (Option UInt32) := do
  let _ ← (Command.of .appCmd 0 .short).execute config
  let reply ← (Command.of .sendOpCond operatingCondition .short).execute config
  if testBit reply.short 31 then return some reply.short
  else
    Timer.delay config.sysClkHz config.ocrRetryDelayMs
    return none

def powerUp (card : Card) : Fallible σ Card := do
  .lift <| Driver.note .powerUpStarted
  match ← .lift (card.config.ocrAttempts.poll (powerUpRound card.config)) with
  | some ocr =>
    let info := card.info.poweredUp ocr
    .lift <| Driver.note (.poweredUp info)
    return { card with info }.inState .identification
  | none =>
    .lift <| Driver.note .notPoweredUp
    throw .cardNotReady

def identify (card : Card) : Fallible σ Card := do
  .lift <| Driver.note (.sending .allSendCid)
  let reply ← step card.config (.of .allSendCid 0 .long)
  .lift <| Driver.notes ((reply.onSuccess fun r => Cid.decode r.long).toList.map .cidRead)
  .lift <| Driver.note (.sending .sendRelativeAddr)
  let reply ← step card.config (.of .sendRelativeAddr 0 .short)
  let rca := reply.onSuccess Reply.relativeAddress
  .lift <| Driver.notes (rca.toList.map .addressTaken)
  return match rca with
    | some rca => { card with session := ⟨rca, .standBy⟩ }
    | none => card

def readRegisters (card : Card) : Fallible σ Card := do
  let address := card.session.addressArgument
  .lift <| Driver.note (.sending .sendCid)
  let reply ← step card.config (.of .sendCid address .long)
  let cid := reply.onSuccess fun r => Cid.decode r.long
  .lift <| Driver.note (.sending .sendCsd)
  let reply ← step card.config (.of .sendCsd address .long)
  let csd := reply.onSuccess fun r => Csd.decode r.long
  .lift <| Driver.notes (csd.toList.map .csdRead)
  return { card with info := { card.info with cid, csd } }

def select (card : Card) : Fallible σ Card := do
  .lift <| Driver.note (.sending .selectCard)
  let reply ← step card.config (.of .selectCard card.session.addressArgument .short)
  return if reply.status = .ok then card.inState (.transfer .sdr12) else card

def widenBus (card : Card) : Fallible σ Card := do
  .lift <| Driver.note .wideBus
  let _ ← applicationStep card (.of .setBusWidth fourBitBus .short)
  return card

/-- Switches one group to `function`, by way of the buffer `scratch`; the Boolean tells whether the
card took it. -/
def switchFunction (card : Card) (scratch : UInt32) (group : Fin 6) (function : BitVec 4) :
    Fallible σ (Bool × Card) := do
  .lift <| Driver.note (.sendingSwitch group function)
  let c := Command.of .switchFunc (switchArgument group function) .short
  let reply ← step card.config (c.withRead scratch switchStatusSize)
  if reply.status = .ok then
    let block ← .lift (Driver.readMemory scratch 64)
    let status := SwitchStatus.decode block
    let got := status.selectedIn group
    .lift <| Driver.notes (if got = function then [] else [.functionRefused group function got])
    return (got = function, { card with info := { card.info with switchStatus := some status } })
  else return (false, card)

def switchFunctions (card : Card) : Fallible σ Card :=
  match card.config.scratchAddress with
  | none => do
    .lift <| Driver.note .noScratch
    return card
  | some scratch => do
    let mode := card.config.accessMode
    let (taken, card) ← switchFunction card scratch accessModeGroup mode.code
    let card := if taken then card.inState (.transfer mode) else card
    let (_, card) ← switchFunction card scratch driverStrengthGroup card.config.driverStrength.code
    return card

/-- The bus clock, in kHz, for the speed that the card is at. -/
def operatingKhz (card : Card) : UInt32 :=
  match card.session.state with
  | .transfer .sdr12 => min card.config.clockKhz defaultSpeedKhz
  | .transfer _ => card.config.clockKhz
  | _ => min card.config.clockKhz defaultSpeedKhz

def setClock (card : Card) : Fallible σ Card := do
  let _ ← .lift (Clock.program card.operatingKhz)
  return card

def readScr (card : Card) : Fallible σ Card :=
  match card.config.scratchAddress with
  | none => return card
  | some scratch => do
    .lift <| Driver.note (.sending .sendScr)
    let reply ← applicationStep card ((Command.of .sendScr 0 .short).withRead scratch scrSize)
    if reply.status = .ok then
      let block ← .lift (Driver.readMemory scratch 8)
      let scr := Scr.decode block
      .lift <| Driver.note (.scrRead scr)
      return { card with info := { card.info with scr := some scr } }
    else return card

def setBlockLength (card : Card) : Fallible σ Card := do
  .lift <| Driver.note (.sending .setBlocklen)
  let _ ← step card.config (.of .setBlocklen blockSize .short)
  .lift <| Driver.note (.broughtUp card.session card.operatingKhz)
  return card

def bringUp (config : Config) : Fallible σ Card := do
  .lift (prepare config)
  let card ← reset (.fresh config)
  let card ← powerUp card
  let card ← identify card
  let card ← readRegisters card
  let card ← select card
  let card ← widenBus card
  let card ← switchFunctions card
  let card ← setClock card
  let card ← readScr card
  setBlockLength card

end SecureDigital.Card

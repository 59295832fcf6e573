import Std.Data.TreeMap
import SecureDigital.Command
import SecureDigital.Device
import SecureDigital.Memory

/-!
# A simulated controller with a card

`Simulated` is a controller whose DMA units see a small memory, with a card behind it that stores
blocks and answers the commands of the bring-up. Events can be scripted, phases can stay busy for some
polls, and blocks can be corrupted on their way back. An access outside the memory is refused, and so
is a block read whose corruption lies outside the block.

`Simulated.answer` is the card's part: the response and the effect of each command. A command counts
as an application command when APP_CMD came right before it.
-/

namespace SecureDigital

structure Issued where
  index : UInt8
  argument : UInt32
  /-- Whether APP_CMD came right before. -/
  application : Bool
deriving DecidableEq

/-- The number that tells the command apart from all others. -/
def Issued.number (c : Issued) : Nat := c.index.toNat + if c.application then 100 else 0

structure Simulated where
  /-- The card's registers, CRC bytes included. -/
  cid : BitVec 128
  csd : BitVec 128
  scr : Vector UInt8 8
  rca : UInt16
  highCapacity : Bool
  /-- Function groups, counted from 1, in which the card refuses every function. -/
  rejectedGroups : List Nat
  /-- The event words of the next command phases; a plain end once they are used up. -/
  cmdEvents : List UInt32
  dataEvents : List UInt32
  /-- Polls for which a phase stays busy; used up over all phases. -/
  cmdBusyPolls : Nat
  dataBusyPolls : Nat
  /-- Polls for which the DMA reader stays busy after each start. -/
  readerBusyPolls : Nat
  timerPolls : Nat
  /-- Power-up replies that still report a busy card. -/
  ocrBusyReplies : Nat
  nextResponse : Option Response
  /-- Each pair is a place in a block and what its byte is xored with when the block is read. -/
  readCorruption : List (Nat × UInt8)
  memory : Memory
  blocks : Std.TreeMap UInt32 (Array UInt8)
  pllWords : Std.TreeMap UInt32 UInt32
  issued : List Issued
  registerAccesses : Nat
  argument : UInt32
  blockSize : UInt32
  readerAddress : UInt32
  readerBytes : Array UInt8
  readerPending : Nat
  writerAddress : UInt32
  pllAddress : UInt32
  pllData : UInt32
  cmdEvent : UInt32
  dataEvent : UInt32
  response : Response
  application : Bool

namespace Simulated

def memorySize : Nat := 0x4000

def sampleCid : BitVec 128 := 0x0353445355303847801234567800C501#128

def sampleCsd : BitVec 128 := 0x40000032000900003B37000000000001#128

def sampleScr : Vector UInt8 8 := #v[0x02, 0x35, 0x80, 0x02, 0, 0, 0, 0]

def fresh : Simulated where
  cid := sampleCid
  csd := sampleCsd
  scr := sampleScr
  rca := 0xB368
  highCapacity := true
  rejectedGroups := []
  cmdEvents := []
  dataEvents := []
  cmdBusyPolls := 0
  dataBusyPolls := 0
  readerBusyPolls := 0
  timerPolls := 0
  ocrBusyReplies := 0
  nextResponse := none
  readCorruption := []
  memory := .zero
  blocks := ∅
  pllWords := ∅
  issued := []
  registerAccesses := 0
  argument := 0
  blockSize := 0
  readerAddress := 0
  readerBytes := #[]
  readerPending := 0
  writerAddress := 0
  pllAddress := 0
  pllData := 0
  cmdEvent := 0
  dataEvent := 0
  response := .zero
  application := false

def oneWord (word : UInt32) : Response := #v[0, 0, 0, word]

def statusWord : UInt32 := 0x900

/-- The bit of the status that tells an application command is expected. -/
def appCmdBit : UInt32 := 0x20

def plainEnd : UInt32 := 1

/-- The function that a group, counted from 0, selects on `argument`. -/
def grant (s : Simulated) (argument : UInt32) (group : Nat) : UInt8 :=
  let wanted := ((argument >>> UInt32.ofNat (4 * group)) &&& 0xF).toUInt8
  if s.rejectedGroups.contains (group + 1) then 0xF else if wanted = 0xF then 0 else wanted

/-- The status block that answers SWITCH_FUNC: 100 mA, the functions 0 to 4 in every group, and what
each group selects. -/
def switchStatus (s : Simulated) (argument : UInt32) : Vector UInt8 64 :=
  Vector.ofFn fun i =>
    if i.val = 1 then 100
    else if 2 ≤ i.val ∧ i.val < 14 then (if i.val % 2 = 0 then 0 else 0x1F)
    else if 14 ≤ i.val ∧ i.val ≤ 16 then
      let group := 2 * (16 - i.val)
      s.grant argument group ||| (s.grant argument (group + 1) <<< 4)
    else if i.val = 17 then 1
    else 0

def deliver (s : Simulated) (bytes : Array UInt8) : Option Simulated := do
  let memory ← s.memory.store? memorySize s.writerAddress bytes
  return { s with memory }

def block (s : Simulated) (address : UInt32) : Array UInt8 :=
  s.blocks.getD address (Array.replicate 512 0)

/-- Xors the bytes of a block as listed; `none` if one is not in the block. -/
def corrupt (corruption : List (Nat × UInt8)) (bytes : Array UInt8) : Option (Array UInt8) :=
  corruption.foldlM (fun bytes (place, xor) =>
    if place < bytes.size then some (bytes.modify place (· ^^^ xor)) else none) bytes

def readyWord (s : Simulated) : UInt32 := if s.highCapacity then 0xC0FF8000 else 0x80FF8000

def busyWord : UInt32 := 0x00FF8000

/-- The card's response to a command and what the command does; `none` if memory refuses. A command
without a meaning of its own is answered with the status, and so is SEND_IF_COND after APP_CMD. -/
def answer (s : Simulated) (c : Issued) : Option (Response × Simulated) :=
  match Opcode.ofIndex? c.application c.index with
  | some .goIdleState => some (.zero, s)
  | some .sendIfCond =>
    some (oneWord (if c.application then statusWord else c.argument &&& 0xFFF), s)
  | some .appCmd => some (oneWord (statusWord ||| appCmdBit), s)
  | some .sendOpCond =>
    match s.ocrBusyReplies with
    | 0 => some (oneWord s.readyWord, s)
    | n + 1 => some (oneWord busyWord, { s with ocrBusyReplies := n })
  | some .allSendCid | some .sendCid => some (.ofRegister s.cid, s)
  | some .sendCsd => some (.ofRegister s.csd, s)
  | some .sendRelativeAddr => some (oneWord ((s.rca.toUInt32 <<< 16) ||| 0x500), s)
  | some .switchFunc => do
    let sent := (s.switchStatus c.argument).toArray.take s.blockSize.toNat
    return (oneWord statusWord, ← s.deliver sent)
  | some .sendScr => return (oneWord statusWord, ← s.deliver s.scr.toArray)
  | some .readSingleBlock => do
    let sent ← corrupt s.readCorruption (s.block c.argument)
    return (oneWord statusWord, ← s.deliver sent)
  | some .writeSingleBlock =>
    some (oneWord statusWord, { s with blocks := s.blocks.insert c.argument s.readerBytes })
  | some .selectCard | some .sendStatus | some .setBlocklen | some .setBusWidth | none =>
    some (oneWord statusWord, s)

def launch (s : Simulated) (word : UInt32) : Option Simulated := do
  let c : Issued := ⟨(Command.indexField.read word).toUInt8, s.argument, s.application⟩
  let (response, s) ← answer { s with issued := s.issued ++ [c] } c
  let s := { s with
    response := s.nextResponse.getD response
    nextResponse := none
    cmdEvent := s.cmdEvents.head?.getD plainEnd
    cmdEvents := s.cmdEvents.tail
    application := c.index == Opcode.appCmd.index }
  if Command.transferField.read word = 0 then return s
  else return { s with
    dataEvent := s.dataEvents.head?.getD plainEnd
    dataEvents := s.dataEvents.tail }

def startReader (s : Simulated) (length : UInt32) : Option Simulated := do
  let bytes ← s.memory.load? memorySize s.readerAddress length.toNat
  return { s with readerBytes := bytes.toArray, readerPending := s.readerBusyPolls }

def writeRegister (s : Simulated) (register : ControlRegister) (value : UInt32) : Option Simulated :=
  match register with
  | .argument => some { s with argument := value }
  | .blockSize => some { s with blockSize := value }
  | .readerAddress => some { s with readerAddress := value }
  | .readerLength => s.startReader value
  | .writerAddress => some { s with writerAddress := value }
  | .command => s.launch value
  | .pllAddress => some { s with pllAddress := value }
  | .pllData => some { s with pllData := value }
  | .pllWrite => some { s with pllWords := s.pllWords.insert s.pllAddress s.pllData }
  | .blockCount | .cmdTimeout | .dataTimeout | .timerEnable | .timerReload | .timerLoad
  | .timerUpdate => some s

def readRegister (s : Simulated) (register : StatusRegister) : UInt32 × Simulated :=
  match register with
  | .cmdEvent =>
    match s.cmdBusyPolls with
    | 0 => (s.cmdEvent, s)
    | n + 1 => (0, { s with cmdBusyPolls := n })
  | .dataEvent =>
    match s.dataBusyPolls with
    | 0 => (s.dataEvent, s)
    | n + 1 => (0, { s with dataBusyPolls := n })
  | .response word => (s.response.word word, s)
  | .readerDone =>
    match s.readerPending with
    | 0 => (1, s)
    | n + 1 => (0, { s with readerPending := n })
  | .pllReady => (1, s)
  | .timerValue =>
    match s.timerPolls with
    | 0 => (0, s)
    | n + 1 => (1, { s with timerPolls := n })

def count (s : Simulated) : Simulated := { s with registerAccesses := s.registerAccesses + 1 }

instance : Device Simulated where
  write s register value := s.count.writeRegister register value
  read s register := s.count.readRegister register
  readMemory s address length :=
    (s.memory.load? memorySize address length).map fun bytes => (bytes, s)
  writeMemory s address bytes :=
    (s.memory.store? memorySize address bytes).map fun memory => { s with memory }

end Simulated

end SecureDigital

import SecureDigital.Card
import SecureDigital.Clock.Ratio
import SecureDigital.Command.Opcode
import SecureDigital.Console
import SecureDigital.Register
import SecureDigital.Status

/-!
# What the driver reports

A `Notice` is one thing the driver has to say, with the values it says it about. `level` is how grave
it is and `text` its wording; `Console.notify` logs it.
-/

namespace SecureDigital

inductive Notice
  -- command engine
  | issued (index : UInt8) (argument : UInt32)
  | commandFailed (index : UInt8) (status : Status)
  | dataFailed (index : UInt8) (status : Status)
  | pollExhausted (register : StatusRegister)
  -- bus clock
  | clockSet (khz : UInt32) (ratio : Ratio)
  -- bring-up
  | sending (op : Opcode)
  | sendingSwitch (group : Fin 6) (function : BitVec 4)
  | interfaceMismatch (response : UInt32)
  | powerUpStarted
  | poweredUp (info : CardInfo)
  | notPoweredUp
  | cidRead (cid : Cid)
  | addressTaken (rca : UInt16)
  | csdRead (csd : Csd)
  | wideBus
  | functionRefused (group : Fin 6) (function got : BitVec 4)
  | noScratch
  | scrRead (scr : Scr)
  | stepSkipped (index : UInt8) (status : Status)
  | stepAborted (index : UInt8) (status : Status)
  | broughtUp (session : Session) (khz : UInt32)
  -- block transfers
  | readingBlock (block dest : UInt32)
  | writingBlock (block src : UInt32)
  | writeFailed (block : UInt32) (status : Status)
  | readerStuck (block : UInt32)
  -- self-test
  | selfTestStarted (block : UInt32)
  | wrongWord (position : Nat) (got : UInt32)
  | selfTestFailed (errors words : Nat)
  | selfTestPassed
  -- card slot
  | slotFilling (base : UInt32)
  | slotLeftEmpty (cause : Error)
  | slotRead (block : UInt32)
  | slotWrite (block : UInt32)

namespace Notice

def level : Notice → Level
  | issued .. | readingBlock .. | writingBlock .. | slotRead .. | slotWrite .. => .trace
  | commandFailed .. | dataFailed .. | clockSet .. | sending .. | sendingSwitch ..
  | interfaceMismatch .. | powerUpStarted | poweredUp .. | addressTaken .. | wideBus
  | wrongWord .. => .debug
  | cidRead .. | csdRead (.v1 ..) | csdRead (.v2 ..) | scrRead .. | broughtUp ..
  | selfTestStarted .. | selfTestPassed | slotFilling .. => .info
  | pollExhausted .. | csdRead (.unsupported ..) | functionRefused .. | noScratch | stepSkipped ..
  | writeFailed .. | readerStuck .. => .warn
  | notPoweredUp | stepAborted .. | selfTestFailed .. | slotLeftEmpty .. => .error

def cidText (c : Cid) : String :=
  let mid := Text.hexPadded 4 c.manufacturerId.toNat
  let major := c.revision.toNat / 16
  let minor := c.revision.toNat % 16
  let psn := Text.hexPadded 10 c.serial.toNat
  s!"SD: CID mid={mid} oid={c.oem} pnm={c.name} rev={major}.{minor} psn={psn} " ++
    s!"mdt={c.year}/{c.month.toNat}"

/-- The card-specific data in words; a capacity is cut to whole MiB. -/
def csdText (c : Csd) : String :=
  match c with
  | .unsupported structureBits => s!"SD: CSD structure {structureBits.toNat} not supported"
  | .v1 .. | .v2 .. =>
    let mebibytes := (c.capacity?.getD 0) / (1024 * 1024)
    s!"SD: CSD {c.text}, capacity {mebibytes} MiB"

def text : Notice → String
  | issued index argument => s!"SD: CMD{index} arg={Text.hexPadded 10 argument.toNat}"
  | commandFailed index status => s!"SD: CMD{index} failed: {status.name}"
  | dataFailed index status => s!"SD: CMD{index} data phase failed: {status.name}"
  | pollExhausted register => s!"SD: {register.name} poll budget exhausted"
  | clockSet khz ratio =>
    s!"SD: Setting clock to {khz} kHz (m={ratio.multiplier}, d={ratio.divider})"
  | sending op => s!"SD: Sending {op.label}"
  | sendingSwitch group function =>
    s!"SD: Sending {Opcode.switchFunc.label} group {group.val + 1} function {function.toNat}"
  | interfaceMismatch response => s!"SD: CMD8 response mismatch: {Text.hex response.toNat}"
  | powerUpStarted => "SD: Starting ACMD41 loop"
  | poweredUp info =>
    s!"SD: Card ready, OCR={Text.hexPadded 10 info.ocr.toNat}, " ++
      if info.highCapacity then "SDHC/SDXC" else "SDSC"
  | notPoweredUp => "SD: Card did not finish power-up"
  | cidRead cid => cidText cid
  | addressTaken rca => s!"SD: RCA={Text.hexPadded 6 rca.toNat}"
  | csdRead csd => csdText csd
  | wideBus => "SD: Switching to 4-bit mode"
  | functionRefused group function got =>
    s!"SD: Group {group.val + 1} function {function.toNat} not selected (got Some({got.toNat}))"
  | noScratch => "SD: No scratch buffer, skipping SWITCH_FUNC and SCR"
  | scrRead scr => s!"SD: SCR {scr.text}"
  | stepSkipped index status => s!"SD: CMD{index} failed ({status.name}), continuing"
  | stepAborted index status => s!"SD: CMD{index} failed ({status.name}), aborting"
  | broughtUp session khz =>
    s!"SD: Card initialized, RCA={Text.hexPadded 6 session.rca.toNat}, {session.state.text} " ++
      s!"at {khz} kHz"
  | readingBlock block dest => s!"SD: read block {block} -> {Text.hex dest.toNat}"
  | writingBlock block src => s!"SD: write block {block} <- {Text.hex src.toNat}"
  | writeFailed block status => s!"SD: CMD24 for block {block} failed: {status.name}"
  | readerStuck block => s!"SD: DMA reader did not finish block {block}"
  | selfTestStarted block => s!"SD: Self-test on block {block}"
  | wrongWord position got =>
    s!"SD: word {position}: expected {Text.hex position}, got {Text.hex got.toNat}"
  | selfTestFailed errors words => s!"SD: Self-test failed, {errors}/{words} words wrong"
  | selfTestPassed => "SD: Self-test passed"
  | slotFilling base => s!"Initializing SD card controller at {Text.hex base.toNat}..."
  | slotLeftEmpty cause => s!"SD: Failed to initialize card: {cause.text}"
  | slotRead block => s!"SD global_read_block: block={block}"
  | slotWrite block => s!"SD global_write_block: block={block}"

def toRecord (n : Notice) : Record := ⟨n.level, n.text⟩

end Notice

def Console.notify (c : Console) (notices : List Notice) : Console :=
  notices.foldl (fun c n => c.record n.toRecord) c

end SecureDigital

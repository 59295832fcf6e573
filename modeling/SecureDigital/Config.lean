/-!
# Configuration of the driver

`Config.default` waits without bound, skips bring-up steps that fail and has no scratch buffer, so a
card brought up with it stays at the default speed.
-/

namespace SecureDigital

inductive PollLimit
  | unbounded
  | attempts (n : UInt32)
deriving DecidableEq

inductive StepPolicy
  | proceed
  | abort
deriving DecidableEq

/-- Functions of group 1 of SWITCH_FUNC: the bus speeds. -/
inductive AccessMode
  | sdr12
  | sdr25
  | sdr50
  | sdr104
  | ddr50
deriving DecidableEq

namespace AccessMode

def code : AccessMode → BitVec 4
  | sdr12 => 0
  | sdr25 => 1
  | sdr50 => 2
  | sdr104 => 3
  | ddr50 => 4

def name : AccessMode → String
  | sdr12 => "Sdr12"
  | sdr25 => "Sdr25"
  | sdr50 => "Sdr50"
  | sdr104 => "Sdr104"
  | ddr50 => "Ddr50"

end AccessMode

/-- Functions of group 3 of SWITCH_FUNC: the output drivers. -/
inductive DriverStrength
  | typeB
  | typeA
  | typeC
  | typeD
deriving DecidableEq

namespace DriverStrength

def code : DriverStrength → BitVec 4
  | typeB => 0
  | typeA => 1
  | typeC => 2
  | typeD => 3

def name : DriverStrength → String
  | typeB => "TypeB"
  | typeA => "TypeA"
  | typeC => "TypeC"
  | typeD => "TypeD"

end DriverStrength

/-- The fastest bus clock, in kHz, of a card at the default speed. -/
def defaultSpeedKhz : UInt32 := 25000

structure Config where
  /-- Frequency of the clock that drives the countdown timer. -/
  sysClkHz : UInt32 := 100000000
  initClockKhz : UInt32 := 400
  /-- Bus clock afterwards, held to `defaultSpeedKhz` unless the card takes a faster mode. -/
  clockKhz : UInt32 := 50000
  /-- What the controller's own two timeouts are set to, in cycles. -/
  controllerTimeoutCycles : UInt32 := 524288
  cmdPoll : PollLimit := .unbounded
  dataPoll : PollLimit := .unbounded
  /-- Polls of the DMA reader's done latch. -/
  dmaPoll : PollLimit := .unbounded
  /-- Rounds of the power-up loop. -/
  ocrAttempts : PollLimit := .unbounded
  ocrRetryDelayMs : UInt32 := 1
  accessMode : AccessMode := .sdr25
  driverStrength : DriverStrength := .typeD
  stepPolicy : StepPolicy := .proceed
  /-- Bus address of a buffer of 64 bytes for what the card sends during bring-up. Without one the
  functions are not switched and the SCR is not read. -/
  scratchAddress : Option UInt32 := none
deriving DecidableEq

def Config.default : Config := {}

end SecureDigital

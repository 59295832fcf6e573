/-!
# The controller's registers

The driver reaches the controller through two kinds of 32-bit registers: a `ControlRegister` is only
written, a `StatusRegister` only read. `name` is what a register is called in traces and notices.
-/

namespace SecureDigital

inductive ControlRegister
  | argument
  /-- Writing it launches a command. -/
  | command
  | blockSize
  | blockCount
  /-- Controller cycles before a command phase times out. -/
  | cmdTimeout
  /-- Controller cycles before a data phase times out. -/
  | dataTimeout
  /-- Where the DMA reader takes its bytes (memory to card). -/
  | readerAddress
  /-- How many bytes the DMA reader takes; writing it starts the unit. -/
  | readerLength
  /-- Where the DMA writer puts its bytes (card to memory). -/
  | writerAddress
  | pllAddress
  | pllData
  | pllWrite
  | timerEnable
  | timerReload
  | timerLoad
  /-- Writing it latches the running count into the timer's value. -/
  | timerUpdate
deriving DecidableEq

namespace ControlRegister

def all : List ControlRegister :=
  [argument, command, blockSize, blockCount, cmdTimeout, dataTimeout, readerAddress, readerLength,
    writerAddress, pllAddress, pllData, pllWrite, timerEnable, timerReload, timerLoad, timerUpdate]

def name : ControlRegister → String
  | argument => "Argument"
  | command => "Command"
  | blockSize => "BlockSize"
  | blockCount => "BlockCount"
  | cmdTimeout => "CmdTimeout"
  | dataTimeout => "DataTimeout"
  | readerAddress => "ReaderAddress"
  | readerLength => "ReaderLength"
  | writerAddress => "WriterAddress"
  | pllAddress => "PllAddress"
  | pllData => "PllData"
  | pllWrite => "PllWrite"
  | timerEnable => "TimerEnable"
  | timerReload => "TimerReload"
  | timerLoad => "TimerLoad"
  | timerUpdate => "TimerUpdate"

theorem mem_all (r : ControlRegister) : r ∈ all := by cases r <;> decide

end ControlRegister

inductive StatusRegister
  | cmdEvent
  | dataEvent
  /-- A word of the response buffer; only the two low bits of the number count. -/
  | response (word : UInt8)
  /-- Non-zero once the DMA reader has drained its buffer. -/
  | readerDone
  /-- Non-zero once the clock generator has taken the last write. -/
  | pllReady
  /-- The latched count of the timer. -/
  | timerValue
deriving DecidableEq

namespace StatusRegister

def name : StatusRegister → String
  | cmdEvent => "CmdEvent"
  | dataEvent => "DataEvent"
  | response word => s!"Response({word})"
  | readerDone => "ReaderDone"
  | pllReady => "PllReady"
  | timerValue => "TimerValue"

end StatusRegister

end SecureDigital

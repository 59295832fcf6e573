import SecureDigital.Command
import SecureDigital.Device
import SecureDigital.Memory

/-!
# A scripted device

`Scripted` answers from lists written down beforehand: each command takes the next `Entry`, and each
status register gives the values of its list in turn, the last one for ever.
-/

namespace SecureDigital

namespace Scripted

structure Entry where
  response : Response := .zero
  cmdEvents : List UInt32 := [1]
  dataEvents : List UInt32 := [1]
  /-- What the DMA writer puts into memory. -/
  delivery : Option (Array UInt8) := none

end Scripted

structure Scripted where
  commands : List Scripted.Entry := []
  /-- The entry of every command after those. -/
  otherwise : Scripted.Entry := {}
  cmdEvents : List UInt32 := []
  dataEvents : List UInt32 := []
  readerDone : List UInt32 := [1]
  pllReady : List UInt32 := [1]
  timerValues : List UInt32 := [0]
  response : Response := .zero
  writerAddress : UInt32 := 0
  memory : Memory := .zero

namespace Scripted

/-- The next value of a list, and what is left of the list. -/
def take : List UInt32 → UInt32 × List UInt32
  | [] => (0, [])
  | [last] => (last, [last])
  | value :: rest => (value, rest)

def launch (s : Scripted) : Scripted :=
  let entry := s.commands.head?.getD s.otherwise
  { s with
    commands := s.commands.tail
    response := entry.response
    cmdEvents := entry.cmdEvents
    dataEvents := entry.dataEvents
    memory := match entry.delivery with
      | none => s.memory
      | some bytes => s.memory.store s.writerAddress bytes }

instance : Device Scripted where
  write s register value :=
    match register with
    | .command => some s.launch
    | .writerAddress => some { s with writerAddress := value }
    | _ => some s
  read s register :=
    match register with
    | .cmdEvent => let (value, rest) := take s.cmdEvents; (value, { s with cmdEvents := rest })
    | .dataEvent => let (value, rest) := take s.dataEvents; (value, { s with dataEvents := rest })
    | .response word => (s.response.word word, s)
    | .readerDone => let (value, rest) := take s.readerDone; (value, { s with readerDone := rest })
    | .pllReady => let (value, rest) := take s.pllReady; (value, { s with pllReady := rest })
    | .timerValue => let (value, rest) := take s.timerValues; (value, { s with timerValues := rest })
  readMemory s address length := some (s.memory.load address length, s)
  writeMemory s address bytes := some { s with memory := s.memory.store address bytes }

end Scripted

end SecureDigital

import SecureDigital.Device
import SecureDigital.Memory
import SecureDigital.Word

/-!
# A device of plain register words

`RegisterFile` keeps the words of the controller's five register blocks and a piece of bus memory, and
does nothing else: what is written stays in its word, and nothing moves by itself. Of the two
completion latches only bit 0 is read.
-/

namespace SecureDigital

inductive RegisterBlock
  | core
  /-- DMA from memory to the card. -/
  | reader
  /-- DMA from the card to memory. -/
  | writer
  | clocker
  | timer
deriving DecidableEq

namespace RegisterBlock

def all : List RegisterBlock := [core, reader, writer, clocker, timer]

def name : RegisterBlock → String
  | core => "core"
  | reader => "reader"
  | writer => "writer"
  | clocker => "clocker"
  | timer => "timer"

def size : RegisterBlock → Nat
  | core => 12
  | reader => 3
  | writer => 1
  | clocker => 4
  | timer => 5

/-- The place of the block's first word among all words. -/
def start : RegisterBlock → Nat
  | core => 0
  | reader => 12
  | writer => 15
  | clocker => 16
  | timer => 20

theorem start_add_size_le (b : RegisterBlock) : b.start + b.size ≤ 25 := by cases b <;> decide

end RegisterBlock

def ControlRegister.place : ControlRegister → Fin 25
  | argument => 0
  | command => 1
  | blockSize => 8
  | blockCount => 9
  | cmdTimeout => 10
  | dataTimeout => 11
  | readerAddress => 12
  | readerLength => 13
  | writerAddress => 15
  | pllAddress => 16
  | pllData => 17
  | pllWrite => 18
  | timerLoad => 20
  | timerReload => 21
  | timerEnable => 22
  | timerUpdate => 23

def StatusRegister.place : StatusRegister → Fin 25
  | response word => ⟨2 + word.toNat % 4, by omega⟩
  | cmdEvent => 6
  | dataEvent => 7
  | readerDone => 14
  | pllReady => 19
  | timerValue => 24

structure RegisterFile where
  /-- The words of all blocks, block after block. -/
  words : Vector UInt32 25
  memoryBase : UInt32
  memorySize : Nat
  /-- The memory, addressed from its start. -/
  memory : Memory

namespace RegisterFile

/-- Zeros in all words and all memory, except that the clock generator is ready. -/
def ready (memoryBase : UInt32) (memorySize : Nat) : RegisterFile where
  words := (Vector.replicate 25 0).set StatusRegister.pllReady.place 1
  memoryBase
  memorySize
  memory := .zero

/-- The bit that a completion latch is read from. -/
def latch : Field := ⟨0, 1⟩

def block (f : RegisterFile) (b : RegisterBlock) : List UInt32 :=
  (f.words.toList.drop b.start).take b.size

/-- Sets a word of a block; there is no effect past the block's end. -/
def poke (f : RegisterFile) (b : RegisterBlock) (word : Nat) (value : UInt32) : RegisterFile :=
  if word < b.size then { f with words := f.words.setIfInBounds (b.start + word) value } else f

instance : Device RegisterFile where
  write f register value := some { f with words := f.words.set register.place value }
  read f register :=
    let word := f.words[register.place]
    match register with
    | .readerDone | .pllReady => (latch.read word, f)
    | _ => (word, f)
  readMemory f address length :=
    (f.memory.load? f.memorySize (address - f.memoryBase) length).map fun bytes => (bytes, f)
  writeMemory f address bytes :=
    (f.memory.store? f.memorySize (address - f.memoryBase) bytes).map fun memory =>
      { f with memory }

end RegisterFile

end SecureDigital

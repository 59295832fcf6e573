import SecureDigital.Cid
import SecureDigital.Command.Opcode
import SecureDigital.Status
import SecureDigital.Word

/-!
# Commands and replies

A `Command` is what the driver asks of the controller, `Command.word` the word that launches it, and
a `Reply` what came back: how the phases ended and the four words of the response buffer.
-/

namespace SecureDigital

inductive ResponseKind
  | none
  /-- Of 48 bits; the last word of the buffer holds the low 32. -/
  | short
  /-- Of 136 bits; the buffer holds a `LongResponse`. -/
  | long
deriving DecidableEq

namespace ResponseKind

def code : ResponseKind → UInt32
  | none => 0
  | short => 1
  | long => 2

def name : ResponseKind → String
  | none => "None"
  | short => "Short"
  | long => "Long"

end ResponseKind

inductive Transfer
  | none
  /-- From the card to memory at `dest`. -/
  | read (dest : UInt32)
  /-- From memory at `src` to the card. -/
  | write (src : UInt32)
deriving DecidableEq

namespace Transfer

def code : Transfer → UInt32
  | none => 0
  | read _ => 1
  | write _ => 2

def name : Transfer → String
  | none => "None"
  | read _ => "Read"
  | write _ => "Write"

def address? : Transfer → Option UInt32
  | none => .none
  | read dest => some dest
  | write src => some src

end Transfer

structure Command where
  index : UInt8
  argument : UInt32
  response : ResponseKind
  transfer : Transfer := .none
  blockSize : UInt32 := 0
  blockCount : UInt32 := 0
deriving DecidableEq

namespace Command

def responseField : Field := ⟨0, 2⟩

def transferField : Field := ⟨5, 2⟩

def indexField : Field := ⟨8, 6⟩

/-- The command `op`, without a data phase. -/
def of (op : Opcode) (argument : UInt32) (response : ResponseKind) : Command :=
  { index := op.index, argument, response }

/-- Adds a data phase of one block to memory at `dest`. -/
def withRead (c : Command) (dest blockSize : UInt32) : Command :=
  { c with transfer := .read dest, blockSize, blockCount := 1 }

def withWrite (c : Command) (src blockSize : UInt32) : Command :=
  { c with transfer := .write src, blockSize, blockCount := 1 }

def hasData (c : Command) : Bool := c.transfer ≠ .none

def word (c : Command) : UInt32 :=
  indexField.place c.index.toUInt32 ||| transferField.place c.transfer.code |||
    responseField.place c.response.code

def dataLength (c : Command) : UInt32 := c.blockSize * c.blockCount

end Command

/-- Four response words, the most significant first. -/
abbrev Response := Vector UInt32 4

namespace Response

def zero : Response := Vector.replicate 4 0

/-- The word at an address of the response buffer, of which the two low bits count. -/
def word (r : Response) (i : UInt8) : UInt32 := r[i.toNat % 4]

def long (r : Response) : LongResponse :=
  r[0].toBitVec ++ r[1].toBitVec ++ r[2].toBitVec ++ r[3].toBitVec

def short (r : Response) : UInt32 := r[3]

/-- The words of a 128-bit register, whose last byte is the CRC and is left out. -/
def ofRegister (register : BitVec 128) : Response :=
  let raw := register >>> 8
  Vector.ofFn fun i => UInt32.ofBitVec (raw.extractLsb' (32 * (3 - i)) 32)

end Response

structure Reply where
  /-- How the data phase ended if one ran, else the command phase. -/
  status : Status
  commandStatus : Status
  /-- All zero when no response was expected. -/
  response : Response
deriving DecidableEq

namespace Reply

def short (r : Reply) : UInt32 := r.response.short

def long (r : Reply) : LongResponse := r.response.long

/-- What `f` makes of the reply, provided the command ended well. -/
def onSuccess {α : Type} (r : Reply) (f : Reply → α) : Option α :=
  if r.status = .ok then some (f r) else none

/-- The relative address that a card publishes in the upper half of its short response. -/
def relativeAddress (r : Reply) : UInt16 := (r.short >>> 16).toUInt16

end Reply

end SecureDigital

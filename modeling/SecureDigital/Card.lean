import SecureDigital.Cid
import SecureDigital.Config
import SecureDigital.Csd
import SecureDigital.Scr
import SecureDigital.SwitchStatus
import SecureDigital.Word

/-!
# A card that has been brought up

`Card` holds what the driver knows of a card: its configuration, the session (address and protocol
state) and the registers read on the way. `Card.dataAddress` is the address that a data command gives
for a block: the block's number on a high-capacity card, its byte address on a standard one, which
stops at the largest word.
-/

namespace SecureDigital

inductive CardState
  | idle
  /-- Reset, and not yet powered up. -/
  | readyWait
  | identification
  | standBy
  /-- Selected, at the speed of `mode`. -/
  | transfer (mode : AccessMode)
deriving DecidableEq

def CardState.text : CardState → String
  | idle => "Idle"
  | readyWait => "ReadyWait"
  | identification => "Identification"
  | standBy => "StandBy"
  | transfer mode => s!"Transfer({mode.name})"

structure Session where
  /-- The card's relative address, 0 until it has published one. -/
  rca : UInt16
  state : CardState
deriving DecidableEq

namespace Session

def fresh : Session := ⟨0, .idle⟩

/-- The relative address where addressed commands carry it. -/
def addressArgument (s : Session) : UInt32 := s.rca.toUInt32 <<< 16

end Session

structure CardInfo where
  /-- The word that reported power-up. -/
  ocr : UInt32
  /-- Whether data commands address whole blocks. -/
  highCapacity : Bool
  cid : Option Cid
  csd : Option Csd
  scr : Option Scr
  switchStatus : Option SwitchStatus
deriving DecidableEq

namespace CardInfo

def unknown : CardInfo := ⟨0, false, none, none, none, none⟩

/-- What the word `ocr` that reports power-up tells. -/
def poweredUp (i : CardInfo) (ocr : UInt32) : CardInfo := { i with ocr, highCapacity := testBit ocr 30 }

end CardInfo

structure Card where
  config : Config
  session : Session
  info : CardInfo
deriving DecidableEq

namespace Card

def fresh (config : Config) : Card := ⟨config, .fresh, .unknown⟩

def inState (c : Card) (state : CardState) : Card :=
  { c with session := { c.session with state } }

def blockSize : UInt32 := 512

def dataAddress (c : Card) (block : UInt32) : UInt32 :=
  if c.info.highCapacity then block else mulSaturating block blockSize

end Card

/-- The status word that a card answers SEND_STATUS with. -/
structure CardStatus where
  raw : UInt32
deriving DecidableEq

namespace CardStatus

/-- The card's own protocol state, a number from 0 to 15. -/
def currentState (s : CardStatus) : UInt32 := (s.raw >>> 9) &&& 0xF

def readyForData (s : CardStatus) : Bool := testBit s.raw 8

end CardStatus

end SecureDigital

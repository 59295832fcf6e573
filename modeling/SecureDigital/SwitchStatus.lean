/-!
# The status block of SWITCH_FUNC

The card answers SWITCH_FUNC with 64 bytes about six function groups, the sixth group first.
`SwitchStatus.decode?` reads such a block and keeps the groups in ascending order; `selected?` and
`supports` ask about a group by its number, 1 to 6.
-/

namespace SecureDigital

structure SwitchStatus where
  /-- The current the card would draw, in mA; 0 reports an error. -/
  maxCurrent : BitVec 16
  /-- The functions that each group supports, a bit each. -/
  support : Vector (BitVec 16) 6
  /-- The function selected in each group, `0xF` where the request was refused. -/
  selected : Vector (BitVec 4) 6
  version : BitVec 8
  /-- The functions of each group that are busy, a bit each. -/
  busy : Vector (BitVec 16) 6
deriving DecidableEq

namespace SwitchStatus

def pair (high low : UInt8) : BitVec 16 := high.toBitVec ++ low.toBitVec

/-- A byte holds two groups, the odd-numbered one in its low half. -/
def half (byte : UInt8) (group : Nat) : BitVec 4 :=
  if group % 2 = 0 then byte.toBitVec.extractLsb' 0 4 else byte.toBitVec.extractLsb' 4 4

/-- Reads a status block; here groups count from 0. -/
def decode (block : Vector UInt8 64) : SwitchStatus where
  maxCurrent := pair block[0] block[1]
  support := Vector.ofFn fun g => pair block[12 - 2 * g.val] block[13 - 2 * g.val]
  selected := Vector.ofFn fun g => half block[16 - g.val / 2] g.val
  version := block[17].toBitVec
  busy := Vector.ofFn fun g => pair block[28 - 2 * g.val] block[29 - 2 * g.val]

def decode? (bytes : Array UInt8) : Option SwitchStatus :=
  if h : bytes.size = 64 then some (decode ⟨bytes, h⟩) else none

/-- The function selected in a group, counted from 0. -/
def selectedIn (s : SwitchStatus) (group : Fin 6) : BitVec 4 := s.selected[group]

def selected? (s : SwitchStatus) : (group : Nat) → Option (BitVec 4)
  | 0 => none
  | g + 1 => s.selected[g]?

def supports (s : SwitchStatus) (group function : Nat) : Bool :=
  match group with
  | 0 => false
  | g + 1 => (s.support[g]?).any fun bits => function < 16 && bits.getLsbD function

end SwitchStatus

end SecureDigital

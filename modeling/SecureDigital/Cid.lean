/-!
# Long responses and the card identification register

A long response brings a 128-bit register without its last byte, the CRC: bit `n` of the register is
bit `n - 8` of the response. `registerField` cuts fields out by their place in the register.

`Cid.decode` reads the card identification register that way.
-/

namespace SecureDigital

/-- A 128-bit register without its CRC byte, moved down by those eight bits. -/
abbrev LongResponse := BitVec 128

/-- The `width` bits from bit `position` of the register up; `position` is at least 8. -/
def registerField (raw : LongResponse) (position width : Nat) : BitVec width :=
  raw.extractLsb' (position - 8) width

structure Cid where
  manufacturerId : BitVec 8
  oemId : BitVec 16
  productName : Vector Char 5
  /-- Major revision in the high four bits, minor in the low ones. -/
  revision : BitVec 8
  serial : BitVec 32
  /-- Years since 2000. -/
  yearOffset : BitVec 8
  month : BitVec 4
deriving DecidableEq

namespace Cid

/-- A printable ASCII character stays, any other byte becomes a question mark. -/
def nameChar (byte : BitVec 8) : Char :=
  if 0x20 ≤ byte.toNat ∧ byte.toNat ≤ 0x7E then Char.ofNat byte.toNat else '?'

def decode (raw : LongResponse) : Cid where
  manufacturerId := registerField raw 120 8
  oemId := registerField raw 104 16
  productName := Vector.ofFn fun i => nameChar (registerField raw (64 + 8 * (4 - i)) 8)
  revision := registerField raw 56 8
  serial := registerField raw 24 32
  yearOffset := registerField raw 12 8
  month := registerField raw 8 4

def year (c : Cid) : Nat := 2000 + c.yearOffset.toNat

def name (c : Cid) : String := String.ofList c.productName.toList

def oem (c : Cid) : String :=
  String.ofList [Char.ofNat (c.oemId.extractLsb' 8 8).toNat, Char.ofNat (c.oemId.extractLsb' 0 8).toNat]

end Cid

end SecureDigital

import SecureDigital.Cid

/-!
# The card-specific data register

The two structures of the register place the card's size differently; `Csd.decode` tells them apart
by the two top bits and leaves the reserved ones uninterpreted. `capacity?` is in bytes.
-/

namespace SecureDigital

inductive Csd
  /-- Standard capacity. -/
  | v1 (tranSpeed : BitVec 8) (readBlLen : BitVec 4) (cSize : BitVec 12) (cSizeMult : BitVec 3)
  /-- High and extended capacity. -/
  | v2 (tranSpeed : BitVec 8) (readBlLen : BitVec 4) (cSize : BitVec 22)
  /-- A reserved structure. -/
  | unsupported (structureBits : BitVec 2)
deriving DecidableEq

namespace Csd

def decode (raw : LongResponse) : Csd :=
  let structureBits := registerField raw 126 2
  let tranSpeed := registerField raw 96 8
  let readBlLen := registerField raw 80 4
  if structureBits = 0 then
    v1 tranSpeed readBlLen (registerField raw 62 12) (registerField raw 47 3)
  else if structureBits = 1 then
    v2 tranSpeed readBlLen (registerField raw 48 22)
  else unsupported structureBits

def capacity? : Csd → Option Nat
  | v1 _ readBlLen cSize cSizeMult =>
    some ((cSize.toNat + 1) <<< (cSizeMult.toNat + 2 + readBlLen.toNat))
  | v2 _ _ cSize => some ((cSize.toNat + 1) * (512 * 1024))
  | unsupported _ => none

/-- The fields by name, on one line. -/
def text : Csd → String
  | v1 tranSpeed readBlLen cSize cSizeMult =>
    s!"V1 \x7b tran_speed: {tranSpeed.toNat}, read_bl_len: {readBlLen.toNat}, " ++
      s!"c_size: {cSize.toNat}, c_size_mult: {cSizeMult.toNat} \x7d"
  | v2 tranSpeed readBlLen cSize =>
    s!"V2 \x7b tran_speed: {tranSpeed.toNat}, read_bl_len: {readBlLen.toNat}, " ++
      s!"c_size: {cSize.toNat} \x7d"
  | unsupported structureBits => s!"Unsupported \x7b structure: {structureBits.toNat} \x7d"

end Csd

end SecureDigital

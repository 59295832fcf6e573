/-!
# The SD configuration register

Eight bytes, most significant first. `Scr.decode` cuts them into fields, provided the structure bits
are zero; `version?` is the version of the physical layer that the fields stand for.
-/

namespace SecureDigital

namespace Scr

/-- The fields of structure zero. -/
structure Fields where
  sdSpec : BitVec 4
  dataStatAfterErase : Bool
  security : BitVec 3
  /-- Bit 0 for the 1-bit bus, bit 2 for the 4-bit bus. -/
  busWidths : BitVec 4
  sdSpec3 : Bool
  exSecurity : BitVec 4
  sdSpec4 : Bool
  sdSpecX : BitVec 4
  cmdSupport : BitVec 2
deriving DecidableEq

end Scr

inductive Scr
  | v1 (fields : Scr.Fields)
  | unsupported (structureBits : BitVec 4)
deriving DecidableEq

namespace Scr

def ofBytes (bytes : Vector UInt8 8) : BitVec 64 :=
  bytes[0].toBitVec ++ bytes[1].toBitVec ++ bytes[2].toBitVec ++ bytes[3].toBitVec ++
    bytes[4].toBitVec ++ bytes[5].toBitVec ++ bytes[6].toBitVec ++ bytes[7].toBitVec

def decodeBits (v : BitVec 64) : Scr :=
  if v.extractLsb' 60 4 = 0 then
    v1 { sdSpec := v.extractLsb' 56 4
         dataStatAfterErase := v.getLsbD 55
         security := v.extractLsb' 52 3
         busWidths := v.extractLsb' 48 4
         sdSpec3 := v.getLsbD 47
         exSecurity := v.extractLsb' 43 4
         sdSpec4 := v.getLsbD 42
         sdSpecX := v.extractLsb' 38 4
         cmdSupport := v.extractLsb' 32 2 }
  else unsupported (v.extractLsb' 60 4)

def decode (bytes : Vector UInt8 8) : Scr := decodeBits (ofBytes bytes)

/-- Major and minor version of the physical layer; `(0, 0)` stands for fields that no version has. -/
def Fields.version (f : Fields) : Nat × Nat :=
  if f.sdSpec = 0 then (1, 0)
  else if f.sdSpec = 1 then (1, 10)
  else if f.sdSpec = 2 then
    if !f.sdSpec3 then (2, 0)
    else if f.sdSpecX = 0 then (if f.sdSpec4 then 4 else 3, 0)
    else (4 + f.sdSpecX.toNat, 0)
  else (0, 0)

def version? : Scr → Option (Nat × Nat)
  | v1 f => some f.version
  | unsupported _ => none

def text : Scr → String
  | v1 f =>
    s!"V1 \x7b sd_spec: {f.sdSpec.toNat}, data_stat_after_erase: {f.dataStatAfterErase}, " ++
      s!"security: {f.security.toNat}, bus_widths: {f.busWidths.toNat}, sd_spec3: {f.sdSpec3}, " ++
      s!"ex_security: {f.exSecurity.toNat}, sd_spec4: {f.sdSpec4}, sd_specx: {f.sdSpecX.toNat}, " ++
      s!"cmd_support: {f.cmdSupport.toNat} \x7d"
  | unsupported structureBits => s!"Unsupported \x7b structure: {structureBits.toNat} \x7d"

end Scr

end SecureDigital

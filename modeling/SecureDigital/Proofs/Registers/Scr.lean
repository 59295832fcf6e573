import SecureDigital.Proofs.Registers.Fields
import SecureDigital.Scr

/-!
# The configuration register put together again

`Scr.Fields.bits` writes the decoded fields back to their places in the big-endian number of the block. What comes out is
that number without the reserved bits 34 to 37 and the manufacturer's 32 bits below (`decodeBits_of_zero`): no two fields
overlap, and none is cut short.
-/

namespace SecureDigital

/-- The number that bytes stand for, the most significant one first. -/
def bigEndian (bytes : List UInt8) : Nat := bytes.foldl (fun n byte => 256 * n + byte.toNat) 0

namespace Scr

variable {v : BitVec 64} {f : Fields}

/-- The number with all fields in their places; the structure bits and what no field takes are zero. -/
def Fields.bits (f : Fields) : BitVec 64 :=
  placed 56 f.sdSpec ||| placed 55 (BitVec.ofBool f.dataStatAfterErase) ||| placed 52 f.security |||
    placed 48 f.busWidths ||| placed 47 (BitVec.ofBool f.sdSpec3) ||| placed 43 f.exSecurity |||
    placed 42 (BitVec.ofBool f.sdSpec4) ||| placed 38 f.sdSpecX ||| placed 32 f.cmdSupport

theorem toNat_append_byte {n : Nat} (x : BitVec n) (byte : UInt8) :
    (x ++ byte.toBitVec).toNat = 256 * x.toNat + byte.toNat := by
  rw [BitVec.toNat_append, ← Nat.shiftLeft_add_eq_or_of_lt byte.toBitVec.isLt, Nat.shiftLeft_eq, Nat.mul_comm]
  rfl

theorem toNat_ofBytes (bytes : Vector UInt8 8) : (ofBytes bytes).toNat = bigEndian bytes.toList := by
  have hlist : bytes.toList = List.ofFn fun i : Fin 8 => bytes[i.val] := by
    rw [← Vector.toList_ofFn, Vector.ofFn_getElem]
  have hbytes : bytes.toList = [bytes[0], bytes[1], bytes[2], bytes[3], bytes[4], bytes[5], bytes[6], bytes[7]] := hlist
  have hfirst : bytes[0].toBitVec.toNat = 256 * 0 + bytes[0].toNat := (Nat.zero_add _).symm
  rw [hbytes]
  simp only [ofBytes, toNat_append_byte, hfirst]
  rfl

/-! ### The fields -/

theorem ofBool_getLsbD (v : BitVec 64) (i : Nat) : BitVec.ofBool (v.getLsbD i) = v.extractLsb' i 1 := by
  apply BitVec.eq_of_getLsbD_eq
  intro j hj
  obtain rfl : j = 0 := by omega
  simp

theorem decodeBits_of_zero (h : v.extractLsb' 60 4 = 0) :
    ∃ f, decodeBits v = v1 f ∧ f.bits = v &&& ~~~0x3CFFFFFFFF#64 := by
  have hcovered : covered 64 56 4 ||| covered 64 55 1 ||| covered 64 52 3 ||| covered 64 48 4 ||| covered 64 47 1 |||
      covered 64 43 4 ||| covered 64 42 1 ||| covered 64 38 4 ||| covered 64 32 2 ||| covered 64 60 4 =
        ~~~0x3CFFFFFFFF#64 := by decide
  have hnone : v &&& covered 64 60 4 = 0#64 := by
    rw [← placed_extractLsb', h]
    decide
  refine ⟨_, if_pos h, ?_⟩
  -- The structure bits are no field's, but as they are zero they may count as covered.
  rw [← hcovered, BitVec.and_or_distrib_left, hnone, BitVec.or_zero]
  simp only [Fields.bits, ofBool_getLsbD, placed_extractLsb', BitVec.and_or_distrib_left]

theorem toNat_structureBits (v : BitVec 64) : (v.extractLsb' 60 4).toNat = (v >>> 60).toNat := by
  have hsmall : v.toNat >>> 60 < 16 := by
    rw [Nat.shiftRight_eq_div_pow]
    omega
  rw [BitVec.extractLsb'_toNat, BitVec.toNat_ushiftRight]
  exact Nat.mod_eq_of_lt hsmall

theorem structureBits_eq_zero_iff : v.extractLsb' 60 4 = 0 ↔ v >>> 60 = 0 := by
  rw [← BitVec.toNat_inj, ← BitVec.toNat_inj, toNat_structureBits]
  rfl

theorem decodeBits_eq_unsupported_iff {s : BitVec 4} :
    decodeBits v = unsupported s ↔ v >>> 60 ≠ 0 ∧ s.toNat = (v >>> 60).toNat := by
  rw [← toNat_structureBits, BitVec.toNat_inj, ne_eq, ← structureBits_eq_zero_iff]
  by_cases h : v.extractLsb' 60 4 = 0
  · obtain ⟨f, hf, -⟩ := decodeBits_of_zero h
    simp [hf, h]
  · rw [decodeBits, if_neg h, unsupported.injEq, eq_comm]
    exact (and_iff_right h).symm

/-! ### The version -/

theorem version?_eq_none_iff (scr : Scr) : scr.version? = none ↔ ∃ s, scr = unsupported s := by
  cases scr with
  | v1 f => simp [version?]
  | unsupported s => exact iff_of_true rfl ⟨s, rfl⟩

theorem version_le (f : Fields) : f.version.1 ≤ 19 ∧ f.version.2 ≤ 10 := by
  rw [Fields.version]
  repeat' split
  all_goals simp
  omega

/-- What is decoded of a block, whose bytes stand for the number `v`: nothing beyond the structure bits if they are not
zero, and else fields that make up `v` again but for the bits that are no field's. Bytes are wide enough for the version. -/
theorem decode_keeps_bits (bytes : Vector UInt8 8) : ∃ v : BitVec 64, v.toNat = bigEndian bytes.toList ∧
    (∀ s, decode bytes = unsupported s ↔ v >>> 60 ≠ 0 ∧ s.toNat = (v >>> 60).toNat) ∧
    (v >>> 60 = 0 → ∃ f, decode bytes = v1 f ∧ f.bits = v &&& ~~~0x3CFFFFFFFF#64) ∧
    ((decode bytes).version? = none ↔ ∃ s, decode bytes = unsupported s) ∧
    ∀ f, decode bytes = v1 f →
      (4 + UInt8.ofNat f.sdSpecX.toNat).toNat = 4 + f.sdSpecX.toNat ∧ f.version.1 ≤ 19 ∧ f.version.2 ≤ 10 := by
  refine ⟨ofBytes bytes, toNat_ofBytes bytes, fun s => decodeBits_eq_unsupported_iff,
    fun h => decodeBits_of_zero (structureBits_eq_zero_iff.2 h), version?_eq_none_iff _, fun f _ => ⟨?_, version_le f⟩⟩
  rw [UInt8.toNat_add, UInt8.toNat_ofNat']
  show (4 + f.sdSpecX.toNat % 256) % 256 = 4 + f.sdSpecX.toNat
  omega

/-- A block with every bit set but the structure's. -/
theorem decode_keeps_bits_full :
    let bytes : Vector UInt8 8 := #v[0x0F, 0xFF, 0xFF, 0xFF, 0xFF, 0xFF, 0xFF, 0xFF]
    ∃ f, decode bytes = v1 f ∧ f.bits = 0x0FFFFFC300000000 ∧ f.version.1 ≤ 19 := by
  intro bytes
  obtain ⟨v, hv, -, hfields, -, hversion⟩ := decode_keeps_bits bytes
  have hbytes : bigEndian bytes.toList = 0x0FFFFFFFFFFFFFFF := by decide
  obtain rfl : v = 0x0FFFFFFFFFFFFFFF := BitVec.eq_of_toNat_eq (hv.trans hbytes)
  obtain ⟨f, hf, hbits⟩ := hfields (by decide)
  exact ⟨f, hf, hbits.trans (by decide), (hversion f hf).2.1⟩

end Scr

end SecureDigital

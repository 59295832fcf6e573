import SecureDigital.Proofs.Registers.Fields

/-!
# The identification register put together again

`Cid.register` writes the decoded fields back to their places. Nothing of the register is lost but its CRC byte and the
reserved bits 20 to 23, as long as its name is printable (`register_of_printable`). Each character of the name is decoded on
its own, and an unprintable one becomes a question mark (`nameChar_eq`).
-/

namespace SecureDigital.Cid

/-- What is decoded from the long response that brings the register `r`. -/
def ofRegister (r : BitVec 128) : Cid := decode (Response.ofRegister r).long

/-- The bytes of the name in the register, the first character on top. -/
def nameByte (r : BitVec 128) (i : Fin 5) : BitVec 8 := r.extractLsb' (64 + 8 * (4 - i)) 8

/-- The byte is a printable character of ASCII. -/
def IsPrintable (byte : BitVec 8) : Prop := 0x20 ≤ byte.toNat ∧ byte.toNat ≤ 0x7E

instance (byte : BitVec 8) : Decidable (IsPrintable byte) := inferInstanceAs (Decidable (_ ∧ _))

def nameCode (c : Cid) (i : Fin 5) : BitVec 8 := BitVec.ofNat 8 (c.productName.get i).toNat

def nameBits (c : Cid) : BitVec 40 := c.nameCode 0 ++ c.nameCode 1 ++ c.nameCode 2 ++ c.nameCode 3 ++ c.nameCode 4

/-- The register with all fields in their places; the reserved bits and the CRC byte are zero. -/
def register (c : Cid) : BitVec 128 :=
  placed 120 c.manufacturerId ||| placed 104 c.oemId ||| placed 64 c.nameBits ||| placed 56 c.revision |||
    placed 24 c.serial ||| placed 12 (BitVec.ofNat 8 (c.year - 2000)) ||| placed 8 c.month

variable {r : BitVec 128}

theorem nameChar_eq (byte : BitVec 8) :
    nameChar byte = if IsPrintable byte then Char.ofNat byte.toNat else '?' := rfl

theorem toNat_nameChar {byte : BitVec 8} (h : IsPrintable byte) : (nameChar byte).toNat = byte.toNat := by
  have hvalid : byte.toNat.isValidChar := .inl (Nat.lt_of_le_of_lt h.2 (by decide))
  have hchar : Char.ofNat byte.toNat = Char.ofNatAux byte.toNat hvalid := dif_pos hvalid
  rw [nameChar_eq, if_pos h, hchar]
  rfl

theorem ofRegister_eq (r : BitVec 128) : ofRegister r =
    ⟨r.extractLsb' 120 8, r.extractLsb' 104 16, Vector.ofFn fun i => nameChar (nameByte r i), r.extractLsb' 56 8,
      r.extractLsb' 24 32, r.extractLsb' 12 8, r.extractLsb' 8 4⟩ := by
  simp (disch := omega) only [ofRegister, decode, registerField_ofRegister, nameByte]

theorem get_productName (r : BitVec 128) (i : Fin 5) : (ofRegister r).productName.get i = nameChar (nameByte r i) := by
  rw [ofRegister_eq]
  exact Vector.getElem_ofFn i.isLt

theorem nameCode_ofRegister {i : Fin 5} (h : IsPrintable (nameByte r i)) : (ofRegister r).nameCode i = nameByte r i := by
  rw [nameCode, get_productName, toNat_nameChar h, BitVec.ofNat_toNat, BitVec.setWidth_eq]

theorem nameBits_ofRegister (h : ∀ i, IsPrintable (nameByte r i)) : (ofRegister r).nameBits = r.extractLsb' 64 40 := by
  rw [nameBits, nameCode_ofRegister (h 0), nameCode_ofRegister (h 1), nameCode_ofRegister (h 2), nameCode_ofRegister (h 3),
    nameCode_ofRegister (h 4)]
  show r.extractLsb' 96 8 ++ r.extractLsb' 88 8 ++ r.extractLsb' 80 8 ++ r.extractLsb' 72 8 ++ r.extractLsb' 64 8 =
    r.extractLsb' 64 40
  simp (disch := omega) only [BitVec.extractLsb'_append_extractLsb'_eq_extractLsb']

theorem year_ofRegister (r : BitVec 128) : BitVec.ofNat 8 ((ofRegister r).year - 2000) = r.extractLsb' 12 8 := by
  rw [ofRegister_eq, year, Nat.add_sub_cancel_left, BitVec.ofNat_toNat, BitVec.setWidth_eq]

theorem register_of_printable (h : ∀ i, IsPrintable (nameByte r i)) : (ofRegister r).register = r &&& ~~~0xF000FF#128 := by
  have hcovered : covered 128 120 8 ||| covered 128 104 16 ||| covered 128 64 40 ||| covered 128 56 8 |||
      covered 128 24 32 ||| covered 128 12 8 ||| covered 128 8 4 = ~~~0xF000FF#128 := by decide
  rw [register, nameBits_ofRegister h, year_ofRegister, ofRegister_eq]
  simp only [placed_extractLsb', ← BitVec.and_or_distrib_left]
  rw [hcovered]

theorem decode_congr {raw raw' : LongResponse} (h : raw.setWidth 120 = raw'.setWidth 120) : decode raw = decode raw' := by
  have hfield (position width : Nat) (hend : position - 8 + width ≤ 120) :
      registerField raw position width = registerField raw' position width := registerField_congr h hend
  simp (disch := omega) only [decode, hfield]

/-- A register is put together again from its decoded fields, but for the reserved bits and the CRC byte, if its name is
printable. Of any name each character is decoded on its own, and only the bits that a response can carry count. -/
theorem register_ofRegister :
    (∀ r : BitVec 128, (∀ i, IsPrintable (nameByte r i)) → (ofRegister r).register = r &&& ~~~0xF000FF#128) ∧
    (∀ r : BitVec 128, (ofRegister r).name.length = 5 ∧
      ∀ i : Fin 5, (ofRegister r).name.toList[i.val]? =
        some (if IsPrintable (nameByte r i) then Char.ofNat (nameByte r i).toNat else '?')) ∧
    ∀ raw raw' : LongResponse, raw.setWidth 120 = raw'.setWidth 120 → decode raw = decode raw' := by
  refine ⟨fun r => register_of_printable, fun r => ⟨?_, fun i => ?_⟩, fun _ _ => decode_congr⟩
  · simp [name]
  · have hi : (ofRegister r).name.toList[i.val]? = some ((ofRegister r).productName.get i) := by
      simp [name, Vector.get]
    rw [hi, get_productName, nameChar_eq]

/-- A register with all reserved bits set, and a response with bits set that no register fills. -/
theorem register_ofRegister_reserved :
    let r : BitVec 128 := 0x03534453553038478012345678F0C5FF
    let raw : LongResponse := 0x0003534453553038478012345678F0C5
    (∀ i, IsPrintable (nameByte r i)) ∧ (ofRegister r).register = 0x0353445355303847801234567800C500#128 ∧
      (ofRegister r).name.toList[1]? = some 'U' ∧ (raw ||| 0xA5#128 <<< 120).setWidth 120 = raw.setWidth 120 ∧
      decode (raw ||| 0xA5#128 <<< 120) = decode raw := by
  intro r raw
  have hprintable : ∀ i, IsPrintable (nameByte r i) := by decide
  have hbelow : (raw ||| 0xA5#128 <<< 120).setWidth 120 = raw.setWidth 120 := by decide
  obtain ⟨hkept, hname, hraw⟩ := register_ofRegister
  exact ⟨hprintable, (hkept r hprintable).trans (by decide), ((hname r).2 1).trans (by decide), hbelow, hraw _ _ hbelow⟩

end SecureDigital.Cid

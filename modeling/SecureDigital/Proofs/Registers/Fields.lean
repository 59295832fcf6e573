import SecureDigital.Command

/-!
# Fields of registers

`BitVec.extractLsb'` cuts a field out of a register and `placed` puts it back to its place. Fields that are cut out of one
register and put back give the register's bits where a field is, and zeros elsewhere (`placed_extractLsb'`).

A long response brings a register without its CRC byte. A field above that byte is read from the response as it stands in
the register (`registerField_ofRegister`). On its way to the driver a field passes through integers of machine width,
`fieldWord`, which are wide enough for it (`toNat_fieldWord`).
-/

namespace SecureDigital

variable {n position width size : Nat}

/-! ### Taking a register apart and putting it together -/

/-- The register with `value` from bit `position` up, and zeros around it. -/
def placed (position : Nat) (value : BitVec width) : BitVec n := value.setWidth n <<< position

/-- The bits of a register that a field takes. -/
def covered (n position width : Nat) : BitVec n := placed position (BitVec.allOnes width)

theorem getLsbD_placed (value : BitVec width) (i : Nat) :
    (placed position value : BitVec n).getLsbD i = (decide (i < n ∧ position ≤ i) && value.getLsbD (i - position)) := by
  have hdown : i < n → i - position < n := fun h => by omega
  rw [placed, BitVec.getLsbD_shiftLeft, BitVec.getLsbD_setWidth]
  by_cases hi : i < n <;> by_cases hp : position ≤ i <;> simp [hi, hp, hdown]

theorem placed_extractLsb' (r : BitVec n) (position width : Nat) :
    placed position (r.extractLsb' position width) = r &&& covered n position width := by
  apply BitVec.eq_of_getLsbD_eq
  intro i hi
  rw [BitVec.getLsbD_and, covered, getLsbD_placed, getLsbD_placed, BitVec.getLsbD_extractLsb', BitVec.getLsbD_allOnes]
  by_cases hp : position ≤ i
  · have hback : position + (i - position) = i := by omega
    simp [hi, hp, hback, Bool.and_comm]
  · simp [hp]

/-! ### Fields of a long response -/

/-- The driver gets a register without its CRC byte. -/
theorem Response.long_ofRegister (register : BitVec 128) : (Response.ofRegister register).long = register >>> 8 := by
  apply BitVec.eq_of_getLsbD_eq
  intro i hi
  simp only [Response.long, Response.ofRegister, Vector.getElem_ofFn, BitVec.getLsbD_append,
    BitVec.getLsbD_extractLsb']
  grind

theorem registerField_ofRegister (r : BitVec 128) (h : 8 ≤ position) (width : Nat) :
    registerField (Response.ofRegister r).long position width = r.extractLsb' position width := by
  apply BitVec.eq_of_getLsbD_eq
  intro i hi
  have hback : 8 + (position - 8 + i) = position + i := by omega
  rw [registerField, Response.long_ofRegister, BitVec.getLsbD_extractLsb', BitVec.getLsbD_extractLsb',
    BitVec.getLsbD_ushiftRight, hback]

/-- A field is decided by the bits up to its end. -/
theorem registerField_congr {raw raw' : LongResponse} (h : raw.setWidth size = raw'.setWidth size)
    (hfield : position - 8 + width ≤ size) : registerField raw position width = registerField raw' position width := by
  apply BitVec.eq_of_getLsbD_eq
  intro i hi
  have hbelow : position - 8 + i < size := by omega
  have hbit := congrArg (fun r : BitVec size => r.getLsbD (position - 8 + i)) h
  simp only [BitVec.getLsbD_setWidth, hbelow, decide_true, Bool.true_and] at hbit
  rw [registerField, registerField, BitVec.getLsbD_extractLsb', BitVec.getLsbD_extractLsb', hbit]

/-- A field in machine integers: shifted down and masked in 128 bits, cut to 32 bits and then to `size`. -/
def fieldWord (raw : LongResponse) (position width size : Nat) : BitVec size :=
  ((raw >>> (position - 8) &&& (1#128 <<< width - 1#128)).setWidth 32).setWidth size

theorem toNat_fieldWord (raw : LongResponse) (position : Nat) (hsize : width ≤ size) (hword : size ≤ 32) :
    (fieldWord raw position width size).toNat = (registerField raw position width).toNat := by
  have hmask : (1#128 <<< width - 1#128).toNat = 2 ^ width - 1 := by
    have hfits : 2 ^ width < 2 ^ 128 := Nat.pow_lt_pow_right (by decide) (by omega)
    have hbit : (1#128 <<< width).toNat = 2 ^ width := by
      rw [BitVec.toNat_shiftLeft, BitVec.toNat_ofNat, Nat.one_mod_eq_one.2 (by decide), Nat.one_shiftLeft,
        Nat.mod_eq_of_lt hfits]
    have hle : 1#128 ≤ 1#128 <<< width := by
      rw [BitVec.le_def, hbit]
      exact Nat.two_pow_pos width
    rw [BitVec.toNat_sub_of_le hle, hbit]
    rfl
  have hfield : (registerField raw position width).toNat < 2 ^ size :=
    Nat.lt_of_lt_of_le (registerField raw position width).isLt (Nat.pow_le_pow_right (by decide) hsize)
  have hcut : (raw >>> (position - 8) &&& (1#128 <<< width - 1#128)).toNat = (registerField raw position width).toNat := by
    rw [BitVec.toNat_and, hmask, BitVec.toNat_ushiftRight, Nat.and_two_pow_sub_one_eq_mod, registerField,
      BitVec.extractLsb'_toNat]
  have hfield' : (registerField raw position width).toNat < 2 ^ 32 :=
    Nat.lt_of_lt_of_le hfield (Nat.pow_le_pow_right (by decide) hword)
  rw [fieldWord, BitVec.toNat_setWidth, BitVec.toNat_setWidth, hcut, Nat.mod_eq_of_lt hfield', Nat.mod_eq_of_lt hfield]

end SecureDigital

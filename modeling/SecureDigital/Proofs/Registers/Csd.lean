import Mathlib.Algebra.Group.Nat.Defs
import SecureDigital.Csd
import SecureDigital.Proofs.Registers.Fields

/-!
# Card-specific data and the capacity it tells

The structure bits of the register decide what is decoded of it, and each field is read as it stands there
(`ofRegister_cases`). The integers that hold the fields are wide enough for them, and so are 64-bit words for the capacity
that is computed from the fields (`toNat_capacityWord?`): with the first structure it is at most 2^36 bytes
(`capacity_v1_le`), with the second at most 2^41 (`capacity_v2_le`).
-/

namespace SecureDigital.Csd

/-- What is decoded from the long response that brings the register `r`. -/
def ofRegister (r : BitVec 128) : Csd := decode (Response.ofRegister r).long

/-- Position and width of each field, and the width of the integer that holds it. -/
def heldFields : List (Nat × Nat × Nat) :=
  [(126, 2, 8), (96, 8, 8), (80, 4, 8), (62, 12, 16), (47, 3, 8), (48, 22, 32)]

/-- The capacity in 64-bit words: what overflows is lost, and the amount of a shift counts modulo 64. -/
def capacityWord? : Csd → Option UInt64
  | v1 _ readBlLen cSize cSizeMult =>
    some ((UInt64.ofNat cSize.toNat + 1) <<< UInt64.ofNat (cSizeMult.toNat + 2 + readBlLen.toNat))
  | v2 _ _ cSize => some ((UInt64.ofNat cSize.toNat + 1) * 512 * 1024)
  | unsupported _ => none

variable {tranSpeed : BitVec 8} {readBlLen : BitVec 4} {cSize : BitVec 12} {cSizeMult : BitVec 3} {count : BitVec 22}

theorem ofRegister_eq (r : BitVec 128) : ofRegister r =
    if r.extractLsb' 126 2 = 0 then
      v1 (r.extractLsb' 96 8) (r.extractLsb' 80 4) (r.extractLsb' 62 12) (r.extractLsb' 47 3)
    else if r.extractLsb' 126 2 = 1 then v2 (r.extractLsb' 96 8) (r.extractLsb' 80 4) (r.extractLsb' 48 22)
    else unsupported (r.extractLsb' 126 2) := by
  simp (disch := omega) only [ofRegister, decode, registerField_ofRegister]

theorem ofRegister_cases (r : BitVec 128) :
    r.extractLsb' 126 2 = 0 ∧
        ofRegister r = v1 (r.extractLsb' 96 8) (r.extractLsb' 80 4) (r.extractLsb' 62 12) (r.extractLsb' 47 3) ∨
      r.extractLsb' 126 2 = 1 ∧ ofRegister r = v2 (r.extractLsb' 96 8) (r.extractLsb' 80 4) (r.extractLsb' 48 22) ∨
      (r.extractLsb' 126 2 = 2 ∨ r.extractLsb' 126 2 = 3) ∧ ofRegister r = unsupported (r.extractLsb' 126 2) := by
  have hreserved : ∀ b : BitVec 2, b ≠ 0 → b ≠ 1 → b = 2 ∨ b = 3 := by decide
  rw [ofRegister_eq]
  by_cases h0 : r.extractLsb' 126 2 = 0
  · exact .inl ⟨h0, if_pos h0⟩
  rw [if_neg h0]
  by_cases h1 : r.extractLsb' 126 2 = 1
  · exact .inr (.inl ⟨h1, if_pos h1⟩)
  · exact .inr (.inr ⟨hreserved _ h0 h1, if_neg h1⟩)

theorem toNat_heldField (r : BitVec 128) {f : Nat × Nat × Nat} (h : f ∈ heldFields) :
    (fieldWord (Response.ofRegister r).long f.1 f.2.1 f.2.2).toNat = (r.extractLsb' f.1 f.2.1).toNat := by
  have hheld : ∀ f ∈ heldFields, 8 ≤ f.1 ∧ f.2.1 ≤ f.2.2 ∧ f.2.2 ≤ 32 := by decide
  obtain ⟨hposition, hsize, hword⟩ := hheld f h
  rw [toNat_fieldWord _ _ hsize hword, registerField_ofRegister r hposition]

/-! ### The capacity -/

theorem capacity_le {size : Nat} (h : (v1 tranSpeed readBlLen cSize cSizeMult).capacity? = some size) :
    size ≤ 4096 <<< (9 + readBlLen.toNat) := by
  obtain rfl := Option.some.inj h
  have hcount : cSize.toNat + 1 ≤ 4096 := cSize.isLt
  have hunit : cSizeMult.toNat + 2 + readBlLen.toNat ≤ 9 + readBlLen.toNat := by omega
  rw [Nat.shiftLeft_eq, Nat.shiftLeft_eq]
  exact Nat.mul_le_mul hcount (Nat.pow_le_pow_right (by decide) hunit)

theorem capacity?_v1 : (v1 tranSpeed readBlLen cSize cSizeMult).capacity? =
    some ((cSize.toNat + 1) * 2 ^ (cSizeMult.toNat + 2) * 2 ^ readBlLen.toNat) := by
  rw [capacity?, Nat.shiftLeft_eq, Nat.pow_add, ← Nat.mul_assoc]

theorem capacity_v1_le : (cSize.toNat + 1) * 2 ^ (cSizeMult.toNat + 2) * 2 ^ readBlLen.toNat ≤ 2 ^ 36 := by
  have hlength : readBlLen.toNat ≤ 15 := by omega
  calc (cSize.toNat + 1) * 2 ^ (cSizeMult.toNat + 2) * 2 ^ readBlLen.toNat
    _ ≤ 4096 <<< (9 + readBlLen.toNat) := capacity_le (@capacity?_v1 0 readBlLen cSize cSizeMult)
    _ = 4096 * 2 ^ (9 + readBlLen.toNat) := Nat.shiftLeft_eq _ _
    _ ≤ 4096 * 2 ^ 24 := Nat.mul_le_mul_left _ (Nat.pow_le_pow_right (by decide) (by omega))
    _ = 2 ^ 36 := by decide

theorem capacity_v2_le : (count.toNat + 1) * (512 * 1024) ≤ 2 ^ 41 := by
  have hcount : count.toNat + 1 ≤ 4194304 := count.isLt
  omega

theorem shift_lt : cSizeMult.toNat + 2 + readBlLen.toNat < 64 := by omega

theorem toNat_succ_word {n : Nat} (h : n < 4194304) : (UInt64.ofNat n + 1).toNat = n + 1 := by
  rw [UInt64.toNat_add, UInt64.toNat_ofNat']
  show (n % 18446744073709551616 + 1) % 18446744073709551616 = n + 1
  omega

theorem toNat_shifted_word {word : UInt64} {k : Nat} (hk : k < 64) (hfits : word.toNat <<< k < 2 ^ 64) :
    (word <<< UInt64.ofNat k).toNat = word.toNat <<< k := by
  have hamount : (UInt64.ofNat k).toNat % 64 = k := by
    rw [UInt64.toNat_ofNat']
    omega
  rw [UInt64.toNat_shiftLeft, hamount, Nat.mod_eq_of_lt hfits]

/-- The words lose nothing of the capacity. -/
theorem toNat_capacityWord? (csd : Csd) : csd.capacityWord?.map UInt64.toNat = csd.capacity? := by
  cases csd with
  | v1 tranSpeed readBlLen cSize cSizeMult =>
    have hcount := toNat_succ_word (Nat.lt_trans cSize.isLt (by decide : 4096 < 4194304))
    have hfits : (cSize.toNat + 1) <<< (cSizeMult.toNat + 2 + readBlLen.toNat) < 2 ^ 64 := by
      have hle := @capacity_v1_le readBlLen cSize cSizeMult
      rw [Nat.shiftLeft_eq, Nat.pow_add, ← Nat.mul_assoc]
      exact Nat.lt_of_le_of_lt hle (by decide)
    rw [← hcount] at hfits
    rw [capacityWord?, Option.map_some, toNat_shifted_word shift_lt hfits, hcount, capacity?]
  | v2 tranSpeed readBlLen count =>
    have hunits : (count.toNat + 1) * 512 < 2 ^ 64 := by omega
    have hfits : (count.toNat + 1) * 512 * 1024 < 2 ^ 64 := by
      rw [Nat.mul_assoc]
      exact Nat.lt_of_le_of_lt capacity_v2_le (by decide)
    have hcount := toNat_succ_word count.isLt
    rw [capacityWord?, Option.map_some, UInt64.toNat_mul, UInt64.toNat_mul, hcount, capacity?, ← Nat.mul_assoc]
    show some ((count.toNat + 1) * 512 % 2 ^ 64 * 1024 % 2 ^ 64) = _
    rw [Nat.mod_eq_of_lt hunits, Nat.mod_eq_of_lt hfits]
  | unsupported s => rfl

theorem capacity?_eq_none_iff (csd : Csd) : csd.capacity? = none ↔ ∃ s, csd = unsupported s := by
  cases csd with
  | v1 | v2 => simp [capacity?]
  | unsupported s => exact iff_of_true rfl ⟨s, rfl⟩

/-- The two top bits decide what a register is decoded to, each field stands in the register as it is decoded and in an
integer that is wide enough, and the capacity is the exact number that the fields stand for, in 64-bit words too. -/
theorem ofRegister_tells_capacity (r : BitVec 128) :
    (r.extractLsb' 126 2 = 0 ∧
        ofRegister r = v1 (r.extractLsb' 96 8) (r.extractLsb' 80 4) (r.extractLsb' 62 12) (r.extractLsb' 47 3) ∨
      r.extractLsb' 126 2 = 1 ∧ ofRegister r = v2 (r.extractLsb' 96 8) (r.extractLsb' 80 4) (r.extractLsb' 48 22) ∨
      (r.extractLsb' 126 2 = 2 ∨ r.extractLsb' 126 2 = 3) ∧ ofRegister r = unsupported (r.extractLsb' 126 2)) ∧
    (∀ f ∈ heldFields,
      (fieldWord (Response.ofRegister r).long f.1 f.2.1 f.2.2).toNat = (r.extractLsb' f.1 f.2.1).toNat) ∧
    ((ofRegister r).capacity? = none ↔ ∃ s, ofRegister r = unsupported s) ∧
    (∀ tranSpeed readBlLen cSize cSizeMult, ofRegister r = v1 tranSpeed readBlLen cSize cSizeMult →
      let size := (cSize.toNat + 1) * 2 ^ (cSizeMult.toNat + 2) * 2 ^ readBlLen.toNat
      (ofRegister r).capacity? = some size ∧ size ≤ 2 ^ 36 ∧ cSizeMult.toNat + 2 + readBlLen.toNat < 64) ∧
    (∀ tranSpeed readBlLen cSize, ofRegister r = v2 tranSpeed readBlLen cSize →
      let size := (cSize.toNat + 1) * (512 * 1024)
      (ofRegister r).capacity? = some size ∧ size ≤ 2 ^ 41) ∧
    (ofRegister r).capacityWord?.map UInt64.toNat = (ofRegister r).capacity? := by
  refine ⟨ofRegister_cases r, fun f => toNat_heldField r, capacity?_eq_none_iff _, ?_, ?_, toNat_capacityWord? _⟩
  · intro tranSpeed readBlLen cSize cSizeMult h
    rw [h]
    exact ⟨capacity?_v1, capacity_v1_le, shift_lt⟩
  · intro tranSpeed readBlLen cSize h
    rw [h]
    exact ⟨rfl, capacity_v2_le⟩

/-- The largest registers of the first two structures: 64 GiB and 2 TiB. -/
theorem ofRegister_tells_capacity_largest :
    let r : BitVec 128 := placed 96 0xFF#8 ||| placed 80 0xF#4 ||| placed 62 0xFFF#12 ||| placed 47 7#3
    let r' : BitVec 128 := placed 126 1#2 ||| placed 48 0x3FFFFF#22
    ofRegister r = v1 0xFF 0xF 0xFFF 7 ∧ (62, 12, 16) ∈ heldFields ∧
      (fieldWord (Response.ofRegister r).long 62 12 16).toNat = 4095 ∧ (ofRegister r).capacity? = some 68719476736 ∧
      ofRegister r' = v2 0 0 0x3FFFFF ∧ (ofRegister r').capacity? = some 2199023255552 := by
  intro r r'
  have hr : ofRegister r = v1 0xFF 0xF 0xFFF 7 := by decide +kernel
  have hr' : ofRegister r' = v2 0 0 0x3FFFFF := by decide +kernel
  have hheld : (62, 12, 16) ∈ heldFields := by decide
  obtain ⟨-, hfields, -, hfirst, -, -⟩ := ofRegister_tells_capacity r
  obtain ⟨-, -, -, -, hsecond, -⟩ := ofRegister_tells_capacity r'
  exact ⟨hr, hheld, (hfields _ hheld).trans (by decide), (hfirst _ _ _ _ hr).1, hr', (hsecond _ _ _ hr').1⟩

end SecureDigital.Csd

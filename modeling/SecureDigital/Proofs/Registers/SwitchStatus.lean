import SecureDigital.Proofs.Simulated.Answers

/-!
# The status block put together again

`SwitchStatus.bytes` writes a decoded status as the card sends it, up to the reserved bytes. It gives back the block that was
decoded (`bytes_decode`), so no group takes the place of another. A group is asked for by its number, 1 to 6, and any other
number has no answer (`isSome_selected?`, `supports_iff`).

The simulated card selects in each group the function that the argument asks for, or none (`toBitVec_grant`).
-/

namespace SecureDigital

namespace SwitchStatus

/-- The two bytes of a word, the high one first. -/
def octets (word : BitVec 16) : List UInt8 := [.ofBitVec (word.extractLsb' 8 8), .ofBitVec (word.extractLsb' 0 8)]

/-- The bytes of functions, two in each, the first one in its high half. -/
def packed : List (BitVec 4) → List UInt8
  | high :: low :: rest => .ofBitVec (high ++ low) :: packed rest
  | _ => []

/-- The block without its reserved bytes. The groups come in descending order: with g from 1, the words of group g stand at
the bytes 14 - 2g and 30 - 2g. -/
def bytes (s : SwitchStatus) : List UInt8 :=
  octets s.maxCurrent ++ s.support.toList.reverse.flatMap octets ++ packed s.selected.toList.reverse ++
    [.ofBitVec s.version] ++ s.busy.toList.reverse.flatMap octets

theorem octets_pair (high low : UInt8) : octets (pair high low) = [high, low] := by
  have hhigh : (pair high low).extractLsb' 8 8 = high.toBitVec := BitVec.extractLsb'_append_eq_left
  have hlow : (pair high low).extractLsb' 0 8 = low.toBitVec := BitVec.extractLsb'_append_eq_right
  rw [octets, hhigh, hlow]

theorem append_half (byte : UInt8) {high low : Nat} (hhigh : high % 2 = 1) (hlow : low % 2 = 0) :
    UInt8.ofBitVec (half byte high ++ half byte low) = byte := by
  have happend : byte.toBitVec.extractLsb' 4 4 ++ byte.toBitVec.extractLsb' 0 4 = byte.toBitVec := by
    simp (disch := omega) only [BitVec.extractLsb'_append_extractLsb'_eq_extractLsb', BitVec.extractLsb'_eq_self]
  rw [half, half, if_neg (by omega), if_pos hlow, happend]

theorem toList_take_eq_ofFn {α : Type} {n k : Nat} (v : Vector α n) (h : k ≤ n) :
    v.toList.take k = List.ofFn fun i : Fin k => v[i.val] := by
  apply List.ext_getElem
  · simp [h]
  · intro i hi hi'
    simp only [List.getElem_take, Vector.getElem_toList, List.getElem_ofFn]

theorem flatMap_octets (high low : Fin 6 → UInt8) :
    (Vector.ofFn fun g => pair (high g) (low g)).toList.reverse.flatMap octets =
      [high 5, low 5, high 4, low 4, high 3, low 3, high 2, low 2, high 1, low 1, high 0, low 0] := by
  rw [Vector.toList_ofFn]
  simp [List.ofFn_succ, octets_pair]

theorem packed_ofFn (functions : Fin 6 → BitVec 4) : packed (Vector.ofFn functions).toList.reverse =
    [.ofBitVec (functions 5 ++ functions 4), .ofBitVec (functions 3 ++ functions 2),
      .ofBitVec (functions 1 ++ functions 0)] := by
  rw [Vector.toList_ofFn]
  simp [List.ofFn_succ, packed]

theorem bytes_decode (block : Vector UInt8 64) : (decode block).bytes = block.toList.take 30 := by
  have hcurrent : octets (decode block).maxCurrent = [block[0], block[1]] := octets_pair _ _
  have hsupport : (decode block).support.toList.reverse.flatMap octets =
      [block[2], block[3], block[4], block[5], block[6], block[7], block[8], block[9], block[10], block[11], block[12],
        block[13]] := flatMap_octets _ _
  have hselected : packed (decode block).selected.toList.reverse = [block[14], block[15], block[16]] := by
    refine (packed_ofFn _).trans ?_
    show [UInt8.ofBitVec (half block[14] 5 ++ half block[14] 4), .ofBitVec (half block[15] 3 ++ half block[15] 2),
      .ofBitVec (half block[16] 1 ++ half block[16] 0)] = _
    rw [append_half _ rfl rfl, append_half _ rfl rfl, append_half _ rfl rfl]
  have hbusy : (decode block).busy.toList.reverse.flatMap octets =
      [block[18], block[19], block[20], block[21], block[22], block[23], block[24], block[25], block[26], block[27],
        block[28], block[29]] := flatMap_octets _ _
  rw [toList_take_eq_ofFn block (by decide), bytes, hcurrent, hsupport, hselected, hbusy]
  rfl

theorem isSome_decode? (bytes : Array UInt8) : (decode? bytes).isSome ↔ bytes.size = 64 := by
  rw [decode?]
  split
  case isTrue h => exact iff_of_true rfl h
  case isFalse h => exact iff_of_false nofun h

theorem bytes_of_decode? {bytes : Array UInt8} {s : SwitchStatus} (h : decode? bytes = some s) :
    s.bytes = bytes.toList.take 30 := by
  rw [decode?] at h
  split at h
  case isTrue hsize =>
    obtain rfl := Option.some.inj h
    exact bytes_decode ⟨bytes, hsize⟩
  case isFalse => cases h

/-! ### Asking for a group -/

variable {s : SwitchStatus} {group function : Nat}

theorem selected?_succ (s : SwitchStatus) (g : Fin 6) : s.selected? (g.val + 1) = some (s.selectedIn g) :=
  Vector.getElem?_eq_getElem g.isLt

theorem isSome_selected? : (s.selected? group).isSome ↔ 1 ≤ group ∧ group ≤ 6 := by
  cases group with
  | zero => simp [selected?]
  | succ g =>
    have hsome : (s.selected[g]?).isSome ↔ g < 6 := by simp
    rw [selected?, hsome]
    omega

theorem supports_iff : s.supports group function ↔
    ∃ g : Fin 6, group = g.val + 1 ∧ function < 16 ∧ (s.support.get g).getLsbD function := by
  cases group with
  | zero => simp [supports]
  | succ g =>
    rw [supports]
    by_cases hg : g < 6
    · have hsome : s.support[g]? = some (s.support.get ⟨g, hg⟩) := Vector.getElem?_eq_getElem hg
      rw [hsome, Option.any_some, Bool.and_eq_true, decide_eq_true_iff]
      constructor
      · intro h
        exact ⟨⟨g, hg⟩, rfl, h⟩
      · rintro ⟨g', hg', h⟩
        obtain rfl : g = g'.val := by omega
        exact h
    · have hnone : s.support[g]? = none := Vector.getElem?_eq_none (by omega)
      rw [hnone, Option.any_none]
      refine iff_of_false nofun ?_
      rintro ⟨g', hg', -⟩
      omega

end SwitchStatus

/-! ### What the simulated card selects -/

namespace Simulated

/-- The function that an argument of SWITCH_FUNC asks for in a group, counted from 0. -/
def wanted (argument : UInt32) (g : Fin 6) : BitVec 4 := argument.toBitVec.extractLsb' (4 * g) 4

theorem toNat_wanted (argument : UInt32) (g : Fin 6) :
    ((argument >>> UInt32.ofNat (4 * g)) &&& 0xF).toUInt8.toNat = (wanted argument g).toNat := by
  have hshift : (UInt32.ofNat (4 * g)).toNat % 32 = 4 * g := by
    rw [UInt32.toNat_ofNat']
    omega
  rw [UInt32.toNat_toUInt8, UInt32.toNat_and, UInt32.toNat_shiftRight, hshift, wanted, BitVec.extractLsb'_toNat]
  show ((argument.toNat >>> (4 * g.val)) &&& (2 ^ 4 - 1)) % 256 = argument.toNat >>> (4 * g.val) % 16
  rw [Nat.and_two_pow_sub_one_eq_mod]
  omega

theorem toBitVec_grant (card : Simulated) (argument : UInt32) (g : Fin 6) :
    (card.grant argument g).toBitVec.setWidth 4 =
      if card.rejectedGroups.contains (g.val + 1) then 0xF
      else if wanted argument g = 0xF then 0 else wanted argument g := by
  have hnat := toNat_wanted argument g
  simp only [grant]
  generalize ((argument >>> UInt32.ofNat (4 * g)) &&& 0xF).toUInt8 = byte at hnat ⊢
  have hbyte : byte.toBitVec.setWidth 4 = wanted argument g := by
    apply BitVec.eq_of_toNat_eq
    rw [BitVec.toNat_setWidth, UInt8.toNat_toBitVec, hnat]
    exact Nat.mod_eq_of_lt (wanted argument g).isLt
  have hkept : byte = 0xF ↔ wanted argument g = 0xF := by
    rw [← UInt8.toNat_inj, hnat, ← BitVec.toNat_inj]
    rfl
  simp only [hkept, ← hbyte]
  split
  · rfl
  · split <;> rfl

end Simulated

/-- Blocks of 64 bytes are decoded, and their bytes up to the reserved ones can be written again from what is decoded. The
groups from 1 to 6 are answered for, each with its own function and its own word. What the simulated card selects is
decoded as the argument asks for it. -/
theorem SwitchStatus.decoding_keeps_bytes :
    (∀ bytes : Array UInt8, (decode? bytes).isSome ↔ bytes.size = 64) ∧
    (∀ (bytes : Array UInt8) (s : SwitchStatus), decode? bytes = some s → s.bytes = bytes.toList.take 30) ∧
    (∀ s : SwitchStatus, (∀ group, (s.selected? group).isSome ↔ 1 ≤ group ∧ group ≤ 6) ∧
      (∀ g : Fin 6, s.selected? (g.val + 1) = some (s.selectedIn g)) ∧
      ∀ group function, s.supports group function ↔
        ∃ g : Fin 6, group = g.val + 1 ∧ function < 16 ∧ (s.support.get g).getLsbD function) ∧
    ∀ (card : Simulated) (argument : UInt32), ∃ s, decode? (card.switchStatus argument).toArray = some s ∧
      ∀ g : Fin 6, s.selected? (g.val + 1) =
        some (if card.rejectedGroups.contains (g.val + 1) then 0xF
          else if Simulated.wanted argument g = 0xF then 0 else Simulated.wanted argument g) := by
  refine ⟨isSome_decode?, fun _ _ => bytes_of_decode?,
    fun s => ⟨fun _ => isSome_selected?, selected?_succ s, fun _ _ => supports_iff⟩, fun card argument => ?_⟩
  refine ⟨decode (card.switchStatus argument), dif_pos (Vector.size_toArray _), fun g => ?_⟩
  rw [selected?_succ, Simulated.selectedIn_switchStatus, Simulated.toBitVec_grant]

/-- A block in which no two bytes are equal. -/
theorem SwitchStatus.decoding_keeps_bytes_distinct :
    let bytes : Array UInt8 := Array.ofFn fun i : Fin 64 => UInt8.ofNat (i.val + 0x41)
    bytes.size = 64 ∧ ∃ s, decode? bytes = some s ∧ s.bytes = List.ofFn fun i : Fin 30 => UInt8.ofNat (i.val + 0x41) := by
  intro bytes
  obtain ⟨hsize, hkeeps, -, -⟩ := decoding_keeps_bytes
  have h64 : bytes.size = 64 := Array.size_ofFn
  obtain ⟨s, hs⟩ := Option.isSome_iff_exists.1 ((hsize bytes).2 h64)
  exact ⟨h64, s, hs, (hkeeps bytes s hs).trans (by decide)⟩

end SecureDigital

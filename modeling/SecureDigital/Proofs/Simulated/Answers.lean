import SecureDigital.Card.BringUp
import SecureDigital.Proofs.Registers.Fields
import SecureDigital.Proofs.Simulated.Commands

/-!
# What the simulated card tells the driver

The card packs its registers, its address and the functions it grants into response words and status
blocks, and the driver takes them apart again. Here the two sides meet: the driver reads back what the
card holds, for all contents of its registers and every set of rejected groups.
-/

namespace SecureDigital

theorem relativeAddress_word (rca : UInt16) : (((rca.toUInt32 <<< 16) ||| 0x500) >>> 16).toUInt16 = rca := by
  have hstatus : ∀ i < 16, (1280#32).getLsbD (16 + i) = false := by decide
  apply UInt16.toBitVec_inj.1
  apply BitVec.eq_of_getLsbD_eq
  intro i hi
  have hi' : i < 32 := by omega
  simp [hi, hi', hstatus i hi]
  omega

/-- Two nibbles packed into a byte. -/
theorem SwitchStatus.half_of_nibbles {low high : UInt8} (hlow : low < 16) (hhigh : high < 16) :
    (low ||| high <<< 4).toBitVec.extractLsb' 0 4 = low.toBitVec.setWidth 4 ∧
      (low ||| high <<< 4).toBitVec.extractLsb' 4 4 = high.toBitVec.setWidth 4 := by
  have hnibble : ∀ v : BitVec 8, UInt8.ofBitVec v < 16 → v = (v.setWidth 4).setWidth 8 := by decide +kernel
  have hpacked : ∀ a b : BitVec 4,
      (UInt8.ofBitVec (a.setWidth 8) ||| UInt8.ofBitVec (b.setWidth 8) <<< 4).toBitVec.extractLsb' 0 4 = a ∧
        (UInt8.ofBitVec (a.setWidth 8) ||| UInt8.ofBitVec (b.setWidth 8) <<< 4).toBitVec.extractLsb' 4 4 = b := by
    decide +kernel
  have hbytes := hpacked (low.toBitVec.setWidth 4) (high.toBitVec.setWidth 4)
  rwa [← hnibble low.toBitVec hlow, ← hnibble high.toBitVec hhigh] at hbytes

namespace Simulated

variable {s : Simulated}

theorem testBit_busyWord : testBit busyWord 31 = false := by decide

theorem testBit_readyWord (s : Simulated) :
    testBit s.readyWord 31 = true ∧ testBit s.readyWord 30 = s.highCapacity := by
  unfold readyWord
  cases s.highCapacity <;> decide

theorem grant_lt (s : Simulated) (argument : UInt32) (group : Nat) : s.grant argument group < 16 := by
  have hwanted (x : UInt32) : (x &&& 0xF).toUInt8 < 16 := by
    rw [UInt8.lt_iff_toNat_lt, UInt32.toNat_toUInt8, UInt32.toNat_and]
    have hmask : x.toNat &&& 15 ≤ 15 := Nat.and_le_right
    exact Nat.lt_of_le_of_lt (Nat.mod_le _ _) (Nat.lt_succ_of_le hmask)
  simp only [grant]
  split
  · decide
  · split
    · decide
    · exact hwanted _

theorem getElem_switchStatus (s : Simulated) (argument : UInt32) {i : Nat} (hi : 14 ≤ i ∧ i ≤ 16) :
    (s.switchStatus argument)[i] =
      s.grant argument (2 * (16 - i)) ||| s.grant argument (2 * (16 - i) + 1) <<< 4 := by
  have hcurrent : i ≠ 1 := by omega
  have hsupport : ¬ (2 ≤ i ∧ i < 14) := by omega
  simp only [switchStatus, Vector.getElem_ofFn, if_neg hcurrent, if_neg hsupport, if_pos hi]

theorem selectedIn_switchStatus (s : Simulated) (argument : UInt32) (group : Fin 6) :
    (SwitchStatus.decode (s.switchStatus argument)).selectedIn group =
      (s.grant argument group).toBitVec.setWidth 4 := by
  obtain ⟨g, hg⟩ := group
  have hplace : 2 * (16 - (16 - g / 2)) = 2 * (g / 2) := by omega
  have hbyte := SwitchStatus.half_of_nibbles (s.grant_lt argument (2 * (g / 2))) (s.grant_lt argument (2 * (g / 2) + 1))
  have hselected : (SwitchStatus.decode (s.switchStatus argument)).selectedIn ⟨g, hg⟩ =
      SwitchStatus.half (s.switchStatus argument)[16 - g / 2] g := by
    simp [SwitchStatus.selectedIn, SwitchStatus.decode]
  rw [hselected, getElem_switchStatus s argument (by omega), hplace, SwitchStatus.half]
  by_cases heven : g % 2 = 0
  · have hlow : 2 * (g / 2) = g := by omega
    rw [hlow] at hbyte
    rw [if_pos heven, hlow, hbyte.1]
  · have hhigh : 2 * (g / 2) + 1 = g := by omega
    rw [hhigh] at hbyte
    rw [if_neg heven, hhigh, hbyte.2]

/-- The granted function is the one that the driver asks for, unless the group is rejected. -/
theorem grant_switchArgument {group : Fin 6} {function : BitVec 4} (h : function ≠ 0xF) :
    (s.grant (Card.switchArgument group function) group).toBitVec.setWidth 4 =
      if s.rejectedGroups.contains (group + 1) then 0xF else function := by
  have hwanted : ∀ (g : Fin 6) (f : BitVec 4), f ≠ 0xF →
      let wanted := ((Card.switchArgument g f >>> UInt32.ofNat (4 * g)) &&& 0xF).toUInt8
      wanted ≠ 0xF ∧ wanted.toBitVec.setWidth 4 = f := by decide +kernel
  obtain ⟨hne, hfunction⟩ := hwanted group function h
  simp only [grant, if_neg hne]
  split
  · rfl
  · exact hfunction

theorem answer_sendOpCond (s : Simulated) (argument : UInt32) :
    s.answer ⟨41, argument, true⟩ = some (oneWord (if s.ocrBusyReplies = 0 then s.readyWord else busyWord),
      { s with ocrBusyReplies := s.ocrBusyReplies - 1 }) := by
  have hop : Opcode.ofIndex? true 41 = some .sendOpCond := Opcode.ofIndex?_index .sendOpCond
  unfold answer
  simp only [hop]
  split
  case h_1 hready =>
    have hleft : s.ocrBusyReplies - 1 = s.ocrBusyReplies := by omega
    rw [if_pos hready, hleft]
  case h_2 n hbusy =>
    have hleft : s.ocrBusyReplies - 1 = n := by omega
    rw [if_neg (by omega), hleft]

/-! ### What the card sends to memory -/

/-- The simulator when the card answers `c` by sending bytes in blocks of `size` to `dest`. -/
def sending (s : Simulated) (c : Issued) (dest size : UInt32) : Simulated :=
  { s with issued := s.issued ++ [c], blockSize := size, writerAddress := dest }

/-- The simulator once `bytes` are there. -/
def sent (s : Simulated) (c : Issued) (dest size : UInt32) (bytes : Array UInt8) : Simulated :=
  { s.sending c dest size with
    memory := s.memory.store dest bytes
    application := c.index == Opcode.appCmd.index }

theorem ocrBusyReplies_sent (s : Simulated) (c : Issued) (dest size : UInt32) (bytes : Array UInt8) :
    (s.sent c dest size bytes).ocrBusyReplies = s.ocrBusyReplies := by
  unfold sent sending
  rfl

theorem deliver_of_room {bytes : Array UInt8} (h : s.writerAddress.toNat + bytes.size ≤ memorySize) :
    s.deliver bytes = some { s with memory := s.memory.store s.writerAddress bytes } := by
  unfold deliver
  rw [Memory.store?_eq_some_iff.2 ⟨h, rfl⟩]
  rfl

variable {op : Opcode} {argument dest size : UInt32}

theorem respond_withRead {bytes : Array UInt8} (hroom : dest.toNat + bytes.size ≤ memorySize)
    (hanswer : let c : Issued := ⟨op.index, argument, s.application⟩
      (s.sending c dest size).answer c =
        ((s.sending c dest size).deliver bytes).bind fun s => some (oneWord statusWord, s)) :
    s.respond ((Command.of op argument .short).withRead dest size) =
      some (oneWord statusWord, s.sent ⟨op.index, argument, s.application⟩ dest size bytes) := by
  let c : Issued := ⟨op.index, argument, s.application⟩
  show ((s.sending c dest size).answer c).map _ = _
  rw [hanswer, deliver_of_room hroom]
  rfl

theorem respond_sendScr (argument : UInt32) (happlication : s.application = true)
    (hroom : dest.toNat + 8 ≤ memorySize) :
    s.respond ((Command.of .sendScr argument .short).withRead dest size) =
      some (oneWord statusWord, s.sent ⟨51, argument, true⟩ dest size s.scr.toArray) := by
  rw [← happlication]
  refine respond_withRead (by simpa using hroom) ?_
  rw [happlication]
  rfl

theorem respond_switchFunc (argument : UInt32) (happlication : s.application = false)
    (hroom : dest.toNat + 64 ≤ memorySize) :
    s.respond ((Command.of .switchFunc argument .short).withRead dest 64) =
      some (oneWord statusWord, s.sent ⟨6, argument, false⟩ dest 64 (s.switchStatus argument).toArray) := by
  have hwhole : (s.switchStatus argument).toArray.take 64 = (s.switchStatus argument).toArray := by simp
  rw [← happlication]
  refine respond_withRead (by simpa using hroom) ?_
  rw [happlication, ← hwhole]
  rfl

end Simulated

end SecureDigital

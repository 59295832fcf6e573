import SecureDigital.Device.Scripted
import SecureDigital.Proofs.BringUp.Conduct
import SecureDigital.Proofs.Registers.Csd
import SecureDigital.Proofs.Transfer.Calls

/-!
# The addresses of blocks

A transfer launches one command, whose argument is the address of the block (`launches_perform`). A standard card counts
its addresses in bytes, and they stop at the largest word: the blocks from 2^23 on share it, and no others share one
(`dataAddress_eq_iff`). That is beyond the last block of any card of the first register structure, as long as its lengths
are counted in units of at most 2^11 bytes (`Csd.lt_of_holds`).
-/

namespace SecureDigital

namespace Csd

/-- The block of 512 bytes lies within the capacity that the register tells. -/
def Holds (csd : Csd) (block : UInt32) : Prop := ∃ size, csd.capacity? = some size ∧ (block.toNat + 1) * 512 ≤ size

theorem lt_of_holds {tranSpeed : BitVec 8} {readBlLen : BitVec 4} {cSize : BitVec 12} {cSizeMult : BitVec 3}
    {block : UInt32} (hunit : readBlLen.toNat ≤ 11) (h : (v1 tranSpeed readBlLen cSize cSizeMult).Holds block) :
    block.toNat < 8388608 := by
  obtain ⟨size, hsize, hblock⟩ := h
  have hle := capacity_le hsize
  have hmax : 4096 <<< (9 + readBlLen.toNat) ≤ 4294967296 := by
    rw [Nat.shiftLeft_eq]
    calc 4096 * 2 ^ (9 + readBlLen.toNat)
      _ ≤ 4096 * 2 ^ 20 := Nat.mul_le_mul_left _ (Nat.pow_le_pow_right (by decide) (by omega))
      _ = 4294967296 := by decide
  omega

end Csd

namespace Card

variable {card : Card} {a b : UInt32}

theorem dataAddress_of_highCapacity (h : card.info.highCapacity = true) : card.dataAddress b = b := if_pos h

theorem toNat_dataAddress (h : card.info.highCapacity = false) :
    (card.dataAddress b).toNat = min (512 * b.toNat) 4294967295 := by
  have haddress : card.dataAddress b = mulSaturating b 512 := if_neg (by simp [h])
  rw [haddress, toNat_mulSaturating, Nat.mul_comm]
  rfl

theorem toNat_dataAddress_of_lt (h : card.info.highCapacity = false) (hb : b.toNat < 8388608) :
    (card.dataAddress b).toNat = 512 * b.toNat := by
  rw [toNat_dataAddress h]
  omega

theorem dataAddress_of_le (h : card.info.highCapacity = false) (hb : 8388608 ≤ b.toNat) :
    card.dataAddress b = 0xFFFFFFFF := by
  apply UInt32.toNat_inj.1
  rw [toNat_dataAddress h]
  show _ = 4294967295
  omega

/-- Two blocks share their address where it has stopped. -/
theorem dataAddress_eq_iff (hne : a ≠ b) : card.dataAddress a = card.dataAddress b ↔
    card.info.highCapacity = false ∧ 8388608 ≤ a.toNat ∧ 8388608 ≤ b.toNat := by
  have hne' : a.toNat ≠ b.toNat := fun h => hne (UInt32.toNat_inj.1 h)
  cases hcapacity : card.info.highCapacity with
  | true =>
    rw [dataAddress_of_highCapacity hcapacity, dataAddress_of_highCapacity hcapacity]
    exact ⟨fun h => absurd h hne, nofun⟩
  | false =>
    constructor
    · intro h
      have hnat : (card.dataAddress a).toNat = (card.dataAddress b).toNat := congrArg UInt32.toNat h
      rw [toNat_dataAddress hcapacity, toNat_dataAddress hcapacity] at hnat
      exact ⟨rfl, by omega, by omega⟩
    · rintro ⟨-, ha, hb⟩
      rw [dataAddress_of_le hcapacity ha, dataAddress_of_le hcapacity hb]

/-- The command that the call launches, if it is a transfer. -/
def launchOf? (card : Card) : HostCall → Option Launch
  | .writeMemory .. => none
  | .writeBlock block _ => some ⟨24, card.dataAddress block⟩
  | .readBlock block _ => some ⟨17, card.dataAddress block⟩

end Card

theorem Executed.launches {config : Config} {c : Command} {r : Except Halt Reply} {xs : List Access} (hindex : c.index < 64)
    (h : Executed config c r xs) :
    launches xs <+: [c.launch] ∧ ∀ reply, r = .ok reply → launches xs = [c.launch] := by
  obtain ⟨e, rfl, he, hadds⟩ | ⟨halt, es, rfl, hes, hadds⟩ := h.adds hindex
  · have hlaunches : SecureDigital.launches xs = [c.launch] := by
      rw [SecureDigital.launches, hadds.exchanges_eq, List.map_singleton, he]
    exact ⟨hlaunches ▸ List.prefix_rfl, fun _ _ => hlaunches⟩
  · rw [SecureDigital.launches, hadds.exchanges_eq]
    refine ⟨hes, fun _ hr => ?_⟩
    cases hr

theorem Written.launches {config : Config} {c : Command} {r : Except Halt Status} {xs : List Access} (hindex : c.index < 64)
    (h : Written config c r xs) :
    launches xs <+: [c.launch] ∧ ∀ status, r = .ok status → launches xs = [c.launch] := by
  cases h with
  | unfinished hrun => exact ⟨(hrun.launches hindex).1, nofun⟩
  | failed hrun hfailed =>
    obtain ⟨hstart, hwhole⟩ := hrun.launches hindex
    exact ⟨hstart, fun _ _ => hwhole _ rfl⟩
  | awaited hrun hpassed hlatch =>
    obtain ⟨hstart, hwhole⟩ := hrun.launches hindex
    rw [launches_append_of_isQuiet (Card.isQuiet_latch hlatch)]
    exact ⟨hstart, fun _ _ => hwhole _ rfl⟩

variable {σ : Type} [Device σ]

theorem launches_perform {card : Card} {call : HostCall} {r : Except Halt (Option Status)} {xs : List Access}
    (h : (card.perform call : Driver σ _).Runs r xs) :
    launches xs <+: (card.launchOf? call).toList ∧
      ∀ status, r = .ok status → launches xs = (card.launchOf? call).toList := by
  cases call with
  | writeMemory address bytes =>
    have hquiet : (card.perform (.writeMemory address bytes) : Driver σ _).Confined Access.isQuiet :=
      .bind (.writeMemory rfl) fun _ => .pure _
    have hnone : launches xs = [] := launches_append_of_isQuiet (hquiet h) []
    exact ⟨hnone ▸ List.nil_prefix, fun _ _ => hnone⟩
  | writeBlock block src =>
    obtain ⟨r', hwrite, rfl⟩ := h.map
    obtain ⟨hstart, hwhole⟩ := hwrite.writeBlock.launches (Opcode.index_lt .writeSingleBlock)
    refine ⟨hstart, fun status hr => ?_⟩
    cases r' with
    | error e => cases hr
    | ok status' => exact hwhole status' rfl
  | readBlock block dest =>
    obtain ⟨r', hread, rfl⟩ := h.map
    obtain ⟨r'', hrun, rfl⟩ := hread.readBlock
    obtain ⟨hstart, hwhole⟩ := hrun.launches (Opcode.index_lt .readSingleBlock)
    refine ⟨hstart, fun status hr => ?_⟩
    cases r'' with
    | error e => cases hr
    | ok reply => exact hwhole reply rfl

/-- A transfer is launched with the address of its block. Of two blocks the addresses are equal where both have stopped at
the largest word, which no block within a card of the first register structure reaches. -/
theorem transfers_share_address_iff (card : Card) :
    (∀ (call : HostCall) (r : Except Halt (Option Status)) (xs : List Access), (card.perform call : Driver σ _).Runs r xs →
      launches xs <+: (card.launchOf? call).toList ∧
        ∀ status, r = .ok status → launches xs = (card.launchOf? call).toList) ∧
    (∀ a b : UInt32, a ≠ b → (card.dataAddress a = card.dataAddress b ↔
      card.info.highCapacity = false ∧ 8388608 ≤ a.toNat ∧ 8388608 ≤ b.toNat)) ∧
    (card.info.highCapacity = false → ∀ b : UInt32, 8388608 ≤ b.toNat → card.dataAddress b = 0xFFFFFFFF) ∧
    ∀ (raw : LongResponse) (tranSpeed : BitVec 8) (readBlLen : BitVec 4) (cSize : BitVec 12) (cSizeMult : BitVec 3),
      Csd.decode raw = .v1 tranSpeed readBlLen cSize cSizeMult → readBlLen.toNat ≤ 11 → card.info.highCapacity = false →
      (∀ b, (Csd.decode raw).Holds b → (card.dataAddress b).toNat = 512 * b.toNat) ∧
      ∀ a b, (Csd.decode raw).Holds a → (Csd.decode raw).Holds b → a ≠ b → card.dataAddress a ≠ card.dataAddress b := by
  refine ⟨fun _ _ _ => launches_perform, fun _ _ => Card.dataAddress_eq_iff, fun h _ => Card.dataAddress_of_le h,
    fun raw _ _ _ _ hraw hunit hcapacity => ?_⟩
  rw [hraw]
  refine ⟨fun b hb => Card.toNat_dataAddress_of_lt hcapacity (Csd.lt_of_holds hunit hb), fun a b ha _ hne heq => ?_⟩
  obtain ⟨-, hle, -⟩ := (Card.dataAddress_eq_iff hne).1 heq
  exact Nat.not_le_of_lt (Csd.lt_of_holds hunit ha) hle

/-- The last block of the largest standard card, and the two blocks after it. -/
theorem transfers_share_address_iff_largest :
    let card := Card.fresh {}
    let raw : LongResponse := (11 : LongResponse) <<< 72 ||| (4095 : LongResponse) <<< 54 ||| (7 : LongResponse) <<< 39
    let o := (card.perform (.readBlock 0x7FFFFF 0x1000)).run ({} : Scripted) 100
    Csd.decode raw = .v1 0 11 4095 7 ∧ (Csd.decode raw).Holds 0x7FFFFF ∧ (card.dataAddress 0x7FFFFF).toNat = 0xFFFFFE00 ∧
      o.result = .ok (some .ok) ∧ launches o.accesses = [⟨17, 0xFFFFFE00⟩] ∧
      card.dataAddress 0x800000 = card.dataAddress 0x800001 := by
  intro card raw o
  have hraw : Csd.decode raw = .v1 0 11 4095 7 := by decide +kernel
  have hholds : (Csd.decode raw).Holds 0x7FFFFF := ⟨4294967296, by decide +kernel, by decide⟩
  have hstandard : card.info.highCapacity = false := by decide +kernel
  obtain ⟨hlaunches, hshare, -, hwithin⟩ := transfers_share_address_iff (σ := Scripted) card
  obtain ⟨hexact, -⟩ := hwithin raw 0 11 4095 7 hraw (by decide) hstandard
  have haddress : (card.dataAddress 0x7FFFFF).toNat = 0xFFFFFE00 := hexact 0x7FFFFF hholds
  have hends : Driver.ends (card.perform (.readBlock 0x7FFFFF 0x1000)) ({} : Scripted) 100 (· = some .ok) := by
    decide +kernel
  obtain ⟨status, hstatus, hresult⟩ := Driver.exists_of_ends hends
  rw [of_decide_eq_true hstatus] at hresult
  have hlaunched := (hlaunches _ _ _ ⟨_, _, hresult, rfl⟩).2 _ rfl
  have hargument : card.dataAddress 0x7FFFFF = 0xFFFFFE00 := UInt32.toNat_inj.1 haddress
  rw [Card.launchOf?, hargument] at hlaunched
  exact ⟨hraw, hholds, haddress, hresult, hlaunched, (hshare _ _ (by decide)).2 ⟨hstandard, by decide, by decide⟩⟩

end SecureDigital

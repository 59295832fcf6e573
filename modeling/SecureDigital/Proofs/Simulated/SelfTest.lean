import SecureDigital.Card.SelfTest
import SecureDigital.Proofs.Simulated.Transfers

/-!
# The self-test counts damaged words

On a simulator without scripted events the self-test finds exactly the damage that the simulator does to a
block on its way back: it leaves the pattern on the card, and fails just if a word comes back changed, with
the number of such words (`selfTest_counts_damage`). Entries for one byte add up, and may cancel each other.
-/

namespace SecureDigital

namespace Card

/-- The byte of the pattern at a place in the block. -/
def patternByte (place : Nat) : UInt8 := UInt8.ofNat ((place / 4) >>> (8 * (place % 4)))

theorem size_pattern : pattern.size = 512 := Array.size_ofFn

theorem exists_pattern : ∃ block : Vector UInt8 512,
    block.toArray = pattern ∧ ∀ place (hplace : place < 512), block[place] = patternByte place :=
  ⟨.ofFn fun i => patternByte i.val, Vector.toArray_ofFn, fun _ hplace => Vector.getElem_ofFn hplace⟩

/-- In each word of the pattern the low byte is the word's position. -/
theorem toNat_patternByte {i k : Nat} (hi : i < 128) (hk : k < 4) :
    (patternByte (4 * i + k)).toNat = if k = 0 then i else 0 := by
  have hword : (4 * i + k) / 4 = i := by omega
  have hbyte : (4 * i + k) % 4 = k := by omega
  simp only [patternByte, hword, hbyte, UInt8.toNat_ofNat']
  rcases k with _ | _ | _ | _ | k
  all_goals
    simp
    omega

/-- A word is its own position just if its bytes are those of the pattern. -/
theorem toNat_wordAt_eq_iff (block : Vector UInt8 512) (i : Fin 128) :
    (wordAt block i).toNat = i.val ↔ ∀ k (hk : k < 4), block[4 * i.val + k] = patternByte (4 * i.val + k) := by
  have hpattern {k : Nat} (hk : k < 4) : (patternByte (4 * i.val + k)).toNat = if k = 0 then i.val else 0 :=
    toNat_patternByte i.isLt hk
  have h₀ := block[4 * i.val].toNat_lt
  have h₁ := block[4 * i.val + 1].toNat_lt
  have h₂ := block[4 * i.val + 2].toNat_lt
  have h₃ := block[4 * i.val + 3].toNat_lt
  rw [wordAt, UInt32.toNat_ofNat', Nat.mod_eq_of_lt (by omega)]
  simp only [← UInt8.toNat_inj]
  refine ⟨fun h k hk => ?_, fun h => ?_⟩
  · rw [hpattern hk]
    rcases k with _ | _ | _ | _ | k
    all_goals
      simp
      omega
  · have h0 : block[4 * i.val].toNat = i.val := (h 0 (by omega)).trans (hpattern (by omega))
    have h1 : block[4 * i.val + 1].toNat = 0 := (h 1 (by omega)).trans (hpattern (by omega))
    have h2 : block[4 * i.val + 2].toNat = 0 := (h 2 (by omega)).trans (hpattern (by omega))
    have h3 : block[4 * i.val + 3].toNat = 0 := (h 3 (by omega)).trans (hpattern (by omega))
    omega

theorem length_wrongWords (block : Vector UInt8 512) :
    (wrongWords block).length = (List.finRange 128).countP fun i => (wordAt block i).toNat ≠ i.val := by
  show (List.filterMap (fun i : Fin 128 =>
    if (wordAt block i).toNat = i.val then none else some (i.val, wordAt block i)) (List.finRange 128)).length = _
  rw [List.length_filterMap_eq_countP]
  refine List.countP_congr fun i _ => ?_
  by_cases h : (wordAt block i).toNat = i.val <;> simp [h]

end Card

namespace Simulated

open Card (pattern patternByte wordAt)

/-! ### Damage -/

/-- What the byte at a place is xored with, by all entries for it together. -/
def netXor (corruption : List (Nat × UInt8)) (place : Nat) : UInt8 :=
  ((corruption.filter (·.1 = place)).map (·.2)).foldr (· ^^^ ·) 0

/-- Whether a byte of the word at `position` comes back changed. -/
def Damaged (corruption : List (Nat × UInt8)) (position : Fin 128) : Prop :=
  ∃ k : Fin 4, netXor corruption (4 * position.val + k.val) ≠ 0

instance (corruption : List (Nat × UInt8)) (position : Fin 128) : Decidable (Damaged corruption position) :=
  inferInstanceAs (Decidable (∃ _, _))

variable {corruption : List (Nat × UInt8)} {bytes : Array UInt8}

theorem netXor_cons (place place' : Nat) (xor : UInt8) :
    netXor ((place', xor) :: corruption) place =
      if place' = place then xor ^^^ netXor corruption place else netXor corruption place := by
  by_cases h : place' = place <;> simp [netXor, h]

/-- A block in which all places of the list lie is sent, each byte changed by all entries for it. -/
theorem exists_corrupt (hplaces : ∀ c ∈ corruption, c.1 < bytes.size) :
    ∃ sent, corrupt corruption bytes = some sent ∧ ∃ hsize : sent.size = bytes.size,
      ∀ i (hi : i < bytes.size), sent[i] = bytes[i] ^^^ netXor corruption i := by
  induction corruption generalizing bytes with
  | nil => exact ⟨bytes, rfl, rfl, fun i hi => by simp [netXor]⟩
  | cons c corruption ih =>
    obtain ⟨place, xor⟩ := c
    obtain ⟨hplace, hrest⟩ := List.forall_mem_cons.1 hplaces
    have hmodify : (bytes.modify place (· ^^^ xor)).size = bytes.size := Array.size_modify
    rw [← hmodify] at hrest
    obtain ⟨sent, hsent, hsize, hbytes⟩ := ih hrest
    refine ⟨sent, ?_, hsize.trans hmodify, fun i hi => ?_⟩
    · show (if place < bytes.size then some (bytes.modify place (· ^^^ xor)) else none).bind _ = _
      rw [if_pos hplace]
      exact hsent
    · rw [hbytes i (hmodify ▸ hi), Array.getElem_modify, netXor_cons]
      by_cases h : place = i
      · rw [if_pos h, if_pos h, UInt8.xor_assoc]
      · rw [if_neg h, if_neg h]

theorem exists_corrupt_pattern (hplaces : ∀ c ∈ corruption, c.1 < 512) :
    ∃ sent : Vector UInt8 512, corrupt corruption pattern = some sent.toArray ∧
      ∀ place (hplace : place < 512), sent[place] = patternByte place ^^^ netXor corruption place := by
  obtain ⟨block, hblock, hpattern⟩ := Card.exists_pattern
  rw [← block.size_toArray] at hplaces
  obtain ⟨sent, hsent, hsize, hbytes⟩ := exists_corrupt hplaces
  refine ⟨⟨sent, hsize.trans block.size_toArray⟩, hblock ▸ hsent, fun place hplace => ?_⟩
  rw [← hpattern place hplace]
  exact hbytes place (block.size_toArray.symm ▸ hplace)

/-- A word of the pattern comes back right just if it is not damaged. -/
theorem toNat_wordAt_eq_iff_not_damaged {readBack : Vector UInt8 512}
    (h : ∀ place (hplace : place < 512), readBack[place] = patternByte place ^^^ netXor corruption place)
    (i : Fin 128) : (wordAt readBack i).toNat = i.val ↔ ¬ Damaged corruption i := by
  have hbyte {k : Nat} (hk : k < 4) :
      readBack[4 * i.val + k] = patternByte (4 * i.val + k) ↔ netXor corruption (4 * i.val + k) = 0 := by
    have hinj := UInt8.xor_right_inj (a := netXor corruption (4 * i.val + k)) (b := 0) (patternByte (4 * i.val + k))
    rwa [UInt8.xor_zero, ← h _ (by omega)] at hinj
  rw [Card.toNat_wordAt_eq_iff]
  refine ⟨?_, fun hnone k hk => ?_⟩
  · rintro hright ⟨k, hk⟩
    exact hk ((hbyte k.isLt).1 (hright k k.isLt))
  · exact (hbyte hk).2 (Decidable.byContradiction fun hne => hnone ⟨⟨k, hk⟩, hne⟩)

/-! ### The test -/

/-- The block at `address` of the card is `bytes`, no event is scripted, and blocks are corrupted as listed. -/
structure Bears (corruption : List (Nat × UInt8)) (address : UInt32) (bytes : Array UInt8) (s : Simulated) : Prop where
  unscripted : s.Unscripted
  readCorruption : s.readCorruption = corruption
  stored : s.blocks[address]? = some bytes

variable {s s' : Simulated} {card : Card} {block src dst address : UInt32}

theorem Bears.of_atRest (h : Bears corruption address bytes s.atRest) : Bears corruption address bytes s :=
  ⟨⟨h.unscripted.cmdEvents, h.unscripted.dataEvents⟩, h.readCorruption, h.stored⟩

theorem Bears.block_eq (h : Bears corruption address bytes s) : s.block address = bytes := by
  rw [Simulated.block, Std.TreeMap.getD_eq_getD_getElem?, h.stored]
  rfl

/-- Writing a block takes what is in memory at `src`. -/
theorem achieves_storeBlock (hwaits : card.config.Waits) (hdma : card.config.dmaPoll = .unbounded)
    (hnone : s.Unscripted) (hroom : src.toNat + 512 ≤ memorySize) (hload : (s.memory.load src 512).toArray = bytes) :
    (card.writeBlock block src).Achieves s fun status s' =>
      status = .ok ∧ Bears s.readCorruption (card.dataAddress block) bytes s' := by
  refine (achieves_writeBlock hwaits hdma hnone hroom).imp ?_
  rintro status s' ⟨hok, hs'⟩
  rw [hload] at hs'
  refine ⟨hok, .of_atRest ?_⟩
  rw [hs']
  exact ⟨⟨hnone.cmdEvents, hnone.dataEvents⟩, rfl, Std.TreeMap.getElem?_insert_self⟩

/-- Reading a block brings it to `dst`, corrupted. -/
theorem achieves_fetchBlock {sent : Array UInt8} (hwaits : card.config.Waits)
    (h : Bears corruption (card.dataAddress block) bytes s) (hsent : corrupt corruption bytes = some sent)
    (hroom : dst.toNat + sent.size ≤ memorySize) :
    (card.readBlock block dst).Achieves s fun status s' =>
      status = .ok ∧ Bears corruption (card.dataAddress block) bytes s' ∧ s'.memory = s.memory.store dst sent := by
  rw [← h.readCorruption, ← h.block_eq] at hsent
  refine (achieves_readBlock hwaits h.unscripted hsent hroom).imp ?_
  rintro status s' ⟨hok, hs'⟩
  refine ⟨hok, .of_atRest ?_, ?_⟩
  · rw [hs']
    unfold Simulated.sent sending
    exact ⟨⟨h.unscripted.cmdEvents, h.unscripted.dataEvents⟩, h.readCorruption, h.stored⟩
  · exact congrArg Simulated.memory hs'

theorem succeeds_checkData {transfer : Driver Simulated Status} {Q : Simulated → Prop}
    (h : transfer.Achieves s fun status s' => status = .ok ∧ Q s') :
    (Card.checkData transfer).Succeeds s fun _ s' => Q s' := by
  refine .lift_bind h ?_
  rintro _ s' ⟨rfl, hQ⟩
  exact Driver.Achieves.pure ⟨(), rfl, hQ⟩

/-- What a self-test returns when blocks are corrupted as listed. -/
def verdict (corruption : List (Nat × UInt8)) : Except Error Unit :=
  if ∀ i, ¬ Damaged corruption i then .ok ()
  else .error (.selfTestMismatch ((List.finRange 128).countP fun i => Damaged corruption i))

/-- Comparing what came back finds the damaged words. -/
theorem achieves_compare {readBack : Vector UInt8 512} (s : Simulated)
    (h : ∀ i, (wordAt readBack i).toNat = i.val ↔ ¬ Damaged corruption i) :
    (do
      .lift <| Driver.notes ((Card.wrongWords readBack).map fun (position, got) => .wrongWord position got)
      if (Card.wrongWords readBack).isEmpty then .lift <| Driver.note .selfTestPassed
      else
        .lift <| Driver.note (.selfTestFailed (Card.wrongWords readBack).length Card.blockWords)
        throw (.selfTestMismatch (Card.wrongWords readBack).length) : Fallible Simulated Unit).run.Achieves s fun r s' =>
      r = verdict corruption ∧ s' = s := by
  have hnumber : (Card.wrongWords readBack).length = (List.finRange 128).countP fun i => Damaged corruption i := by
    rw [Card.length_wrongWords]
    exact List.countP_congr fun i _ => by simp [h i]
  generalize Card.wrongWords readBack = wrong at hnumber ⊢
  have hnone : wrong.isEmpty ↔ ∀ i, ¬ Damaged corruption i := by
    rw [List.isEmpty_iff_length_eq_zero, hnumber, List.countP_eq_zero]
    simp
  refine Fallible.Succeeds.run_notes_bind ?_
  by_cases hempty : wrong.isEmpty
  · rw [if_pos hempty, verdict, if_pos (hnone.1 hempty)]
    exact .map (.notes ⟨rfl, rfl⟩)
  · rw [if_neg hempty, verdict, if_neg (mt hnone.2 hempty), ← hnumber]
    exact Fallible.Succeeds.run_notes_bind (.pure ⟨rfl, rfl⟩)

theorem room_of_size (hroom : address.toNat + 512 ≤ memorySize) (hsize : bytes.size = 512) :
    address.toNat + bytes.size ≤ memorySize := by
  rw [hsize]
  exact hroom

theorem achieves_selfTest (hwaits : card.config.Waits) (hdma : card.config.dmaPoll = .unbounded)
    (hnone : s.Unscripted) (hsrc : src.toNat + 512 ≤ memorySize) (hdst : dst.toNat + 512 ≤ memorySize)
    (hplaces : ∀ c ∈ s.readCorruption, c.1 < 512) :
    (card.selfTest block src dst).run.Achieves s fun r s' =>
      r = verdict s.readCorruption ∧ s'.blocks[card.dataAddress block]? = some pattern := by
  obtain ⟨sent, hsent, hbytes⟩ := exists_corrupt_pattern hplaces
  unfold Card.selfTest
  have hpatternRoom := room_of_size hsrc Card.size_pattern
  refine Fallible.Succeeds.run_notes_bind (Fallible.Succeeds.run_lift_bind (achieves_writeMemory hpatternRoom) ?_)
  intro _ s₁ hs₁
  have hnone₁ : s₁.Unscripted := hs₁ ▸ ⟨hnone.cmdEvents, hnone.dataEvents⟩
  have hcorruption₁ : s₁.readCorruption = s.readCorruption := hs₁ ▸ rfl
  have hmemory₁ : s₁.memory = s.memory.store src pattern := by rw [hs₁]
  have hload₁ : (s₁.memory.load src 512).toArray = pattern := by
    rw [hmemory₁, Memory.load_store Card.size_pattern (by decide)]
  refine Fallible.Succeeds.run_bind (succeeds_checkData (achieves_storeBlock hwaits hdma hnone₁ hsrc hload₁)) ?_
  intro _ s₂ h₂
  rw [hcorruption₁] at h₂
  refine Fallible.Succeeds.run_lift_bind (achieves_writeMemory (room_of_size hdst Array.size_replicate)) ?_
  intro _ s₃ hs₃
  -- Clearing the buffer may clear the pattern in memory too, if the buffers overlap; the card has its own copy.
  have h₃ : Bears s.readCorruption (card.dataAddress block) pattern s₃ :=
    hs₃ ▸ ⟨⟨h₂.unscripted.cmdEvents, h₂.unscripted.dataEvents⟩, h₂.readCorruption, h₂.stored⟩
  have hfetch := achieves_fetchBlock hwaits h₃ hsent (room_of_size hdst sent.size_toArray)
  refine Fallible.Succeeds.run_bind (succeeds_checkData hfetch) fun _ s₄ ⟨h₄, hmemory₄⟩ => ?_
  refine Fallible.Succeeds.run_lift_bind (achieves_readMemory hdst) fun readBack s₅ ⟨hload₅, hs₅⟩ => ?_
  subst s₅
  have hreadBack : readBack = sent := by
    rw [hload₅, hmemory₄]
    exact Memory.load_store_vector _ _ _ (by decide)
  subst hreadBack
  refine (achieves_compare s₄ (toNat_wordAt_eq_iff_not_damaged hbytes)).imp fun r s' ⟨hr, hs'⟩ => ⟨hr, ?_⟩
  rw [hs']
  exact h₄.stored

/-- A self-test leaves the words 0 to 127 on the card, whatever block it is and wherever the buffers lie, and
fails just if a word comes back changed, with the number of such words. -/
theorem selfTest_counts_damage (hcmd : card.config.cmdPoll = .unbounded) (hdata : card.config.dataPoll = .unbounded)
    (hdma : card.config.dmaPoll = .unbounded) (hcmdEvents : s.cmdEvents = []) (hdataEvents : s.dataEvents = [])
    (hsrc : src.toNat + 512 ≤ memorySize) (hdst : dst.toNat + 512 ≤ memorySize)
    (hplaces : ∀ c ∈ s.readCorruption, c.1 < 512) :
    ∃ n, ∀ b, n ≤ b →
      let o := (card.selfTest block src dst).run.run s b
      (∃ stored : Vector UInt8 512, o.device.blocks[(card.writeCommand block src).argument]? = some stored.toArray ∧
        ∀ i : Fin 128, (wordAt stored i).toNat = i.val) ∧
      o.result = .ok (if ∀ i, ¬ Damaged s.readCorruption i then .ok ()
        else .error (.selfTestMismatch ((List.finRange 128).countP fun i => Damaged s.readCorruption i))) := by
  have htest : (card.selfTest block src dst).run.Achieves s _ :=
    achieves_selfTest ⟨hcmd, hdata⟩ hdma ⟨hcmdEvents, hdataEvents⟩ hsrc hdst hplaces
  obtain ⟨n, hruns⟩ := htest.exists_budget
  refine ⟨n, fun b hb => ?_⟩
  obtain ⟨_, hresult, rfl, hstored⟩ := hruns b hb
  obtain ⟨stored, hpattern, hbytes⟩ := Card.exists_pattern
  rw [← hpattern] at hstored
  exact ⟨⟨stored, hstored, fun i => (Card.toNat_wordAt_eq_iff stored i).2 fun k hk => hbytes _ _⟩, hresult⟩

/-- Two entries for one byte cancel each other; the buffers overlap. -/
theorem selfTest_counts_damage_twice :
    let o := (Card.bringUp Config.default).run.run slow 3000
    ∃ card n, o.result = .ok (.ok card) ∧ ∀ b, n ≤ b →
      let s := { o.device with readCorruption := [(0, 0xFF), (9, 3), (508, 1), (9, 3)] }
      ((card.selfTest 3 0x1000 0x1100).run.run s b).result = .ok (.error (.selfTestMismatch 2)) := by
  have hreturns : Driver.returns (Card.bringUp Config.default) slow 3000 fun _ => true := by decide +kernel
  obtain ⟨card, -, hresult⟩ := Driver.exists_of_returns hreturns
  have hconfig : card.config = Config.default := (highCapacity_of_bringUp hresult).1
  have hcmdEvents : ((Card.bringUp Config.default).run.run slow 3000).device.cmdEvents = [] := by decide +kernel
  have hdataEvents : ((Card.bringUp Config.default).run.run slow 3000).device.dataEvents = [] := by decide +kernel
  have hfinds (base : Simulated) (hcmdEvents : base.cmdEvents = []) (hdataEvents : base.dataEvents = []) :
      ∃ n, ∀ b, n ≤ b →
        let s := { base with readCorruption := [(0, 0xFF), (9, 3), (508, 1), (9, 3)] }
        ((card.selfTest 3 0x1000 0x1100).run.run s b).result = .ok (.error (.selfTestMismatch 2)) := by
    have hsrc : (0x1000 : UInt32).toNat + 512 ≤ memorySize := by decide
    have hdst : (0x1100 : UInt32).toNat + 512 ≤ memorySize := by decide
    have hplaces : ∀ c ∈ [(0, 0xFF), (9, 3), (508, 1), (9, 3)], (c : Nat × UInt8).1 < 512 := by decide
    obtain ⟨n, hruns⟩ := selfTest_counts_damage
      (s := { base with readCorruption := [(0, 0xFF), (9, 3), (508, 1), (9, 3)] })
      (congrArg Config.cmdPoll hconfig) (congrArg Config.dataPoll hconfig) (congrArg Config.dmaPoll hconfig)
      hcmdEvents hdataEvents hsrc hdst hplaces
    have hdamaged : ¬ ∀ i, ¬ Damaged [(0, 0xFF), (9, 3), (508, 1), (9, 3)] i := by decide
    have hnumber : ((List.finRange 128).countP fun i => Damaged [(0, 0xFF), (9, 3), (508, 1), (9, 3)] i) = 2 := by
      decide
    refine ⟨n, fun b hb => (hruns b hb).2.trans ?_⟩
    rw [if_neg hdamaged, hnumber]
  obtain ⟨n, hruns⟩ := hfinds _ hcmdEvents hdataEvents
  exact ⟨card, n, hresult, hruns⟩

end Simulated

end SecureDigital

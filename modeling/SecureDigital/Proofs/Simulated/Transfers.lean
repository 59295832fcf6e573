import SecureDigital.Proofs.Simulated.BringUp
import SecureDigital.Proofs.Simulated.Capacity
import SecureDigital.Proofs.Transfer.Address
import SecureDigital.Proofs.Transfer.Store

/-!
# The simulated card is a store of blocks

The driver addresses the blocks of a card as the card does, so on a simulator that is calm and does not
corrupt what it sends, transfers always succeed, and the memory and the card evolve as a `Store`
(`performs_refines_store`), whatever the busy counters are and however buffers overlap.
-/

namespace SecureDigital

namespace HostCall

/-- Whether the block has an address that fits a word: on a standard-capacity card, the first 2^23 blocks. -/
def InRange (highCapacity : Bool) (block : UInt32) : Prop := highCapacity ∨ block < 8388608

/-- Whether the call keeps to the memory and to the card's blocks. -/
def Fits (highCapacity : Bool) : HostCall → Prop
  | .writeMemory address bytes => address.toNat + bytes.size ≤ Simulated.memorySize
  | .writeBlock block address | .readBlock block address =>
    address.toNat + 512 ≤ Simulated.memorySize ∧ InRange highCapacity block

instance (highCapacity : Bool) (block : UInt32) : Decidable (InRange highCapacity block) :=
  inferInstanceAs (Decidable (_ ∨ _))

instance (highCapacity : Bool) (call : HostCall) : Decidable (call.Fits highCapacity) :=
  match call with
  | .writeMemory .. => inferInstanceAs (Decidable (_ ≤ _))
  | .writeBlock .. | .readBlock .. => inferInstanceAs (Decidable (_ ∧ _))

/-- What a call comes back with that succeeds. -/
def success : HostCall → Option Status
  | .writeMemory .. => none
  | .writeBlock .. | .readBlock .. => some .ok

end HostCall

namespace Simulated

open HostCall

/-- The address of a block on a card. -/
def addressOf (highCapacity : Bool) (block : UInt32) : UInt32 := if highCapacity then block else 512 * block

theorem toNat_512_mul {b : UInt32} (h : b < 8388608) : (512 * b).toNat = 512 * b.toNat := by
  have hb : b.toNat < 8388608 := h
  rw [UInt32.toNat_mul]
  exact Nat.mod_eq_of_lt (by simp; omega)

theorem addressOf_inj {highCapacity : Bool} {b c : UInt32} (hb : InRange highCapacity b) (hc : InRange highCapacity c) :
    addressOf highCapacity b = addressOf highCapacity c ↔ b = c := by
  cases highCapacity with
  | true => exact Iff.rfl
  | false =>
    refine ⟨fun h => ?_, fun h => h ▸ rfl⟩
    have hb' : b < 8388608 := hb.resolve_left nofun
    have hc' : c < 8388608 := hc.resolve_left nofun
    have hnat : (512 * b).toNat = (512 * c).toNat := congrArg UInt32.toNat h
    rw [toNat_512_mul hb', toNat_512_mul hc'] at hnat
    exact UInt32.toNat_inj.1 (by omega)

/-- The driver addresses a block as a card of the capacity that it takes the card for. -/
theorem dataAddress_eq {card : Card} {highCapacity : Bool} {b : UInt32}
    (hcapacity : card.info.highCapacity = highCapacity) (h : InRange highCapacity b) :
    card.dataAddress b = addressOf highCapacity b := by
  cases highCapacity with
  | true => exact Card.dataAddress_of_highCapacity hcapacity
  | false =>
    have hb : b < 8388608 := h.resolve_left nofun
    apply UInt32.toNat_inj.1
    rw [Card.toNat_dataAddress_of_lt hcapacity hb]
    exact (toNat_512_mul hb).symm

variable {s s' w : Simulated} {card : Card} {block dest src : UInt32}

/-! ### One transfer -/

theorem answer_readSingleBlock (s : Simulated) (argument : UInt32) (application : Bool) :
    s.answer ⟨17, argument, application⟩ = (corrupt s.readCorruption (s.block argument)).bind fun sent =>
      (s.deliver sent).bind fun s => some (oneWord statusWord, s) := by
  cases application <;> rfl

theorem answer_writeSingleBlock (s : Simulated) (argument : UInt32) (application : Bool) :
    s.answer ⟨24, argument, application⟩ =
      some (oneWord statusWord, { s with blocks := s.blocks.insert argument s.readerBytes }) := by
  cases application <;> rfl

theorem respond_readCommand {bytes : Array UInt8}
    (hsent : corrupt s.readCorruption (s.block (card.dataAddress block)) = some bytes)
    (hroom : dest.toNat + bytes.size ≤ memorySize) :
    s.respond (card.readCommand block dest) =
      some (oneWord statusWord, s.sent ⟨17, card.dataAddress block, s.application⟩ dest Card.blockSize bytes) := by
  refine respond_withRead hroom ((answer_readSingleBlock _ _ _).trans ?_)
  show (corrupt s.readCorruption (s.block (card.dataAddress block))).bind _ = _
  rw [hsent]
  rfl

/-- The simulator once the card has taken `bytes`, which come from `src`. -/
def taken (s : Simulated) (c : Issued) (src size : UInt32) (bytes : Array UInt8) : Simulated :=
  { s with
    issued := s.issued ++ [c], application := c.index == Opcode.appCmd.index, blockSize := size, readerAddress := src
    readerBytes := bytes, blocks := s.blocks.insert c.argument bytes }

theorem armed_write {c : Command} {length : Nat} (hc : c.transfer = .write src) (hlength : c.dataLength.toNat = length)
    (hroom : src.toNat + length ≤ memorySize) :
    s.armed c = some { s with
      blockSize := c.blockSize, readerAddress := src, readerBytes := (s.memory.load src length).toArray } := by
  subst hlength
  unfold armed
  rw [hc]
  show (s.memory.load? memorySize src c.dataLength.toNat).map _ = _
  rw [Memory.load?_eq_some_iff.2 ⟨hroom, rfl⟩]
  rfl

theorem respond_writeCommand (hroom : src.toNat + 512 ≤ memorySize) :
    s.respond (card.writeCommand block src) = some (oneWord statusWord,
      s.taken ⟨24, card.dataAddress block, s.application⟩ src Card.blockSize (s.memory.load src 512).toArray) := by
  have hlength : (card.writeCommand block src).dataLength.toNat = 512 := by
    show (512 * 1 : UInt32).toNat = 512
    decide
  rw [respond, armed_write rfl hlength hroom]
  -- What the bytes are does not matter any more, and they must not be unfolded.
  generalize (s.memory.load src 512).toArray = bytes
  exact congrArg (Option.map _) (answer_writeSingleBlock _ _ _)

theorem achieves_awaitDrained (hlimit : card.config.dmaPoll = .unbounded) (s : Simulated) :
    (Card.awaitDrained card.config : Driver Simulated (Option Unit)).Achieves s fun r s' =>
      r = some () ∧ s'.uncounted = s.uncounted := by
  unfold Card.awaitDrained
  rw [hlimit]
  refine achieves_pollRegister (·.readerPending) (PollLimit.allows_unbounded _) (fun t i ht => ?_) fun t _ hleft => ?_
  · simp only [Device.read, readRegister, count, ht]
    exact ⟨rfl, trivial⟩
  · simp only [Device.read, readRegister, count, hleft]
    rfl

theorem achieves_readBlock {bytes : Array UInt8} (hwaits : card.config.Waits) (hnone : s.Unscripted)
    (hsent : corrupt s.readCorruption (s.block (card.dataAddress block)) = some bytes)
    (hroom : dest.toNat + bytes.size ≤ memorySize) :
    (card.readBlock block dest).Achieves s fun status s' => status = .ok ∧
      s'.atRest = s.atRest.unprompted.sent ⟨17, card.dataAddress block, s.application⟩ dest Card.blockSize bytes := by
  have hrespond : s.atRest.respond (card.readCommand block dest) = some (oneWord statusWord, _) :=
    respond_readCommand hsent hroom
  have hindex : (card.readCommand block dest).index < 64 := Opcode.index_lt .readSingleBlock
  have hexecute := achieves_execute_scripted (hnone.endsPhases card.config) hindex hrespond
  refine .notes_bind (hexecute.bind fun reply s' ⟨_, hs', hstatus⟩ => ?_)
  have hsent' : Unscripted (s.atRest.sent ⟨17, card.dataAddress block, s.application⟩ dest Card.blockSize bytes) :=
    ⟨hnone.cmdEvents, hnone.dataEvents⟩
  exact .pure ⟨(hstatus hwaits.cmdPoll hwaits.dataPoll hnone).2, hs'.trans (hsent'.consumed _)⟩

theorem consumed_taken (hnone : s.Unscripted) (c : Issued) (size : UInt32) (bytes : Array UInt8) (hasData : Bool) :
    (s.atRest.taken c src size bytes).consumed hasData = s.atRest.unprompted.taken c src size bytes :=
  Unscripted.consumed (s := s.atRest.taken c src size bytes) ⟨hnone.cmdEvents, hnone.dataEvents⟩ hasData

theorem achieves_writeBlock (hwaits : card.config.Waits) (hdma : card.config.dmaPoll = .unbounded)
    (hnone : s.Unscripted) (hroom : src.toNat + 512 ≤ memorySize) :
    (card.writeBlock block src).Achieves s fun status s' => status = .ok ∧
      s'.atRest = s.atRest.unprompted.taken ⟨24, card.dataAddress block, s.application⟩ src Card.blockSize
        (s.memory.load src 512).toArray := by
  have hrespond : s.atRest.respond (card.writeCommand block src) = some (oneWord statusWord, _) :=
    respond_writeCommand hroom
  have hindex : (card.writeCommand block src).index < 64 := Opcode.index_lt .writeSingleBlock
  have hexecute := achieves_execute_scripted (hnone.endsPhases card.config) hindex hrespond
  refine .notes_bind (hexecute.bind fun reply s₁ ⟨_, h₁, hstatus⟩ => ?_)
  obtain ⟨hcommand, hok⟩ := hstatus hwaits.cmdPoll hwaits.dataPoll hnone
  rw [if_pos hcommand]
  refine (achieves_awaitDrained hdma s₁).bind ?_
  rintro _ s₂ ⟨rfl, h₂⟩
  rw [consumed_taken hnone] at h₁
  exact .pure ⟨hok, (atRest_eq_of_uncounted h₂).trans h₁⟩

/-! ### Many calls -/

/-- The store that the host sees. -/
def store (s : Simulated) : Store where
  memory := s.memory
  block b := Vector.ofFn fun i => (s.block (addressOf s.highCapacity b)).getD i 0

/-- The simulator, which was `base` before, is the store `t`. -/
structure Serves (base : Simulated) (t : Store) (s : Simulated) : Prop where
  calm : s.Calm
  readCorruption : s.readCorruption = []
  highCapacity : s.highCapacity = base.highCapacity
  memory : s.memory = t.memory
  block : ∀ b, InRange base.highCapacity b → s.block (addressOf base.highCapacity b) = (t.block b).toArray
  rest : ∀ address, (∀ b, InRange base.highCapacity b → addressOf base.highCapacity b ≠ address) →
    s.block address = base.block address

variable {base : Simulated} {t : Store}

theorem Serves.of_atRest (h : Serves base t s.atRest) : Serves base t s :=
  ⟨.of_atRest h.calm, h.readCorruption, h.highCapacity, h.memory, h.block, h.rest⟩

theorem Serves.start (hcalm : s.Calm) (hcorruption : s.readCorruption = [])
    (hblocks : ∀ address, (s.block address).size = 512) : Serves s s.store s where
  calm := hcalm
  readCorruption := hcorruption
  highCapacity := rfl
  memory := rfl
  block b _ := by
    have hsize := hblocks (addressOf s.highCapacity b)
    apply Array.ext
    · simpa using hsize
    · intro i hi hi'
      simp [store, hi]
  rest _ _ := rfl

theorem Serves.writeMemory {address : UInt32} {bytes : Array UInt8} (h : Serves base t s)
    (hroom : address.toNat + bytes.size ≤ memorySize) :
    (Driver.writeMemory address bytes : Driver Simulated Unit).Achieves s fun _ s' =>
      Serves base (t.step (.writeMemory address bytes)) s' := by
  refine (achieves_writeMemory hroom).imp ?_
  rintro _ _ rfl
  refine ⟨?_, h.readCorruption, h.highCapacity, ?_, h.block, h.rest⟩
  · exact ⟨h.calm.cmdEvents, h.calm.dataEvents, h.calm.nextResponse⟩
  · show s.memory.store address bytes = t.memory.store address bytes
    rw [h.memory]

theorem block_taken (s : Simulated) (c : Issued) (src size : UInt32) (bytes : Array UInt8) (address : UInt32) :
    (s.taken c src size bytes).block address = if address = c.argument then bytes else s.block address := by
  show (s.blocks.insert c.argument bytes).getD address _ = _
  rw [Std.TreeMap.getD_insert]
  by_cases h : address = c.argument
  · rw [if_pos h, h, if_pos Std.ReflCmp.compare_self]
  · rw [if_neg h, if_neg fun heq => h (Std.LawfulEqCmp.eq_of_compare heq).symm]
    rfl

theorem Serves.readBlock (hwaits : card.config.Waits) (hcapacity : card.info.highCapacity = base.highCapacity)
    (h : Serves base t s) (hroom : dest.toNat + 512 ≤ memorySize) (hrange : InRange base.highCapacity block) :
    (card.readBlock block dest).Achieves s fun status s' =>
      status = .ok ∧ Serves base (t.step (.readBlock block dest)) s' := by
  have haddress : card.dataAddress block = addressOf base.highCapacity block := dataAddress_eq hcapacity hrange
  have hblock : s.block (card.dataAddress block) = (t.block block).toArray := by rw [haddress, h.block block hrange]
  have hsent : corrupt s.readCorruption (s.block (card.dataAddress block)) = some (t.block block).toArray := by
    rw [h.readCorruption, hblock]
    rfl
  refine (achieves_readBlock hwaits h.calm.unscripted hsent (by simpa using hroom)).imp fun status s' ⟨hok, hs'⟩ => ⟨hok, ?_⟩
  apply Serves.of_atRest
  rw [hs']
  unfold sent sending
  refine ⟨?_, h.readCorruption, h.highCapacity, ?_, h.block, h.rest⟩
  · exact ⟨h.calm.cmdEvents, h.calm.dataEvents, rfl⟩
  · show s.memory.store dest (t.block block).toArray = t.memory.store dest (t.block block).toArray
    rw [h.memory]

theorem Serves.writeBlock (hwaits : card.config.Waits) (hdma : card.config.dmaPoll = .unbounded)
    (hcapacity : card.info.highCapacity = base.highCapacity) (h : Serves base t s)
    (hroom : src.toNat + 512 ≤ memorySize) (hrange : InRange base.highCapacity block) :
    (card.writeBlock block src).Achieves s fun status s' =>
      status = .ok ∧ Serves base (t.step (.writeBlock block src)) s' := by
  have haddress : card.dataAddress block = addressOf base.highCapacity block := dataAddress_eq hcapacity hrange
  refine (achieves_writeBlock hwaits hdma h.calm.unscripted hroom).imp fun status s' ⟨hok, hs'⟩ => ⟨hok, ?_⟩
  apply Serves.of_atRest
  rw [hs', h.memory, haddress]
  refine ⟨?_, h.readCorruption, h.highCapacity, h.memory, fun b hb => ?_, fun address hne => ?_⟩
  · exact ⟨h.calm.cmdEvents, h.calm.dataEvents, rfl⟩
  · rw [block_taken]
    show _ = (if b = block then t.memory.load src 512 else t.block b).toArray
    by_cases heq : b = block
    · rw [if_pos heq, if_pos ((addressOf_inj hb hrange).2 heq)]
    · rw [if_neg heq, if_neg fun haddress => heq ((addressOf_inj hb hrange).1 haddress)]
      exact h.block b hb
  · rw [block_taken, if_neg fun heq => hne block hrange heq.symm]
    exact h.rest address hne

theorem Serves.perform {call : HostCall} (hwaits : card.config.Waits) (hdma : card.config.dmaPoll = .unbounded)
    (hcapacity : card.info.highCapacity = base.highCapacity) (h : Serves base t s)
    (hfits : call.Fits base.highCapacity) :
    (card.perform call).Achieves s fun status s' => status = call.success ∧ Serves base (t.step call) s' := by
  cases call with
  | writeMemory address bytes => exact (h.writeMemory hfits).bind fun _ _ h' => .pure ⟨rfl, h'⟩
  | writeBlock block src =>
    refine .map ((h.writeBlock hwaits hdma hcapacity hfits.1 hfits.2).imp fun status s' ⟨hok, h'⟩ => ⟨?_, h'⟩)
    rw [hok]
    rfl
  | readBlock block dest =>
    refine .map ((h.readBlock hwaits hcapacity hfits.1 hfits.2).imp fun status s' ⟨hok, h'⟩ => ⟨?_, h'⟩)
    rw [hok]
    rfl

theorem Serves.performs {calls : List HostCall} (hwaits : card.config.Waits) (hdma : card.config.dmaPoll = .unbounded)
    (hcapacity : card.info.highCapacity = base.highCapacity) (h : Serves base t s)
    (hfits : ∀ call ∈ calls, call.Fits base.highCapacity) :
    (card.performs calls).Achieves s fun statuses s' =>
      statuses = calls.map success ∧ Serves base (t.run calls) s' := by
  induction calls generalizing s t with
  | nil => exact .pure ⟨rfl, h⟩
  | cons call calls ih =>
    obtain ⟨hcall, hcalls⟩ := List.forall_mem_cons.1 hfits
    rw [Card.performs_cons]
    refine (h.perform hwaits hdma hcapacity hcall).bind ?_
    rintro _ s₁ ⟨rfl, h₁⟩
    refine (ih h₁ hcalls).bind ?_
    rintro _ s₂ ⟨rfl, h₂⟩
    exact .pure ⟨rfl, h₂⟩

variable {config : Config} {s₀ : Simulated} {b₀ : Nat} {calls : List HostCall}

/-- On a simulator that has been brought up every transfer succeeds, and the memory and the blocks evolve as
a store does, in whatever state the calls find it: of the bring-up only the capacity counts. What is read of
a block is what was written there last. -/
theorem performs_refines_store (hcmd : config.cmdPoll = .unbounded) (hdata : config.dataPoll = .unbounded)
    (hdma : config.dmaPoll = .unbounded) (hup : ((Card.bringUp config).run.run s₀ b₀).result = .ok (.ok card))
    (hcapacity : s.highCapacity = ((Card.bringUp config).run.run s₀ b₀).device.highCapacity) (hcalm : s.Calm)
    (hcorruption : s.readCorruption = []) (hblocks : ∀ address, (s.block address).size = 512)
    (hfits : ∀ call ∈ calls, call.Fits s.highCapacity) :
    ∃ n, ∀ b, n ≤ b →
      let o := (card.performs calls).run s b
      o.result = .ok (calls.map success) ∧
        o.device.memory = (s.store.run calls).memory ∧
        (∀ c, InRange s.highCapacity c →
          o.device.block (addressOf s.highCapacity c) = ((s.store.run calls).block c).toArray) ∧
        (∀ address, (∀ c, InRange s.highCapacity c → addressOf s.highCapacity c ≠ address) →
          o.device.block address = s.block address) ∧
        (∀ earlier c src between dest, calls = earlier ++ .writeBlock c src :: between ++ [.readBlock c dest] →
          (∀ src', .writeBlock c src' ∉ between) →
          o.device.memory.load dest 512 = (s.store.run earlier).memory.load src 512) ∧
        (∀ earlier c dest, calls = earlier ++ [.readBlock c dest] → (∀ src, .writeBlock c src ∉ earlier) →
          o.device.memory.load dest 512 = s.store.block c) := by
  obtain ⟨hconfig, hcard⟩ := highCapacity_of_bringUp hup
  have hserves := Serves.start hcalm hcorruption hblocks
  have hwaits : card.config.Waits := hconfig ▸ ⟨hcmd, hdata⟩
  obtain ⟨n, hruns⟩ := (hserves.performs hwaits (hconfig ▸ hdma) (hcard.trans hcapacity.symm) hfits).exists_budget
  refine ⟨n, fun b hb => ?_⟩
  obtain ⟨_, hresult, rfl, h⟩ := hruns b hb
  refine ⟨hresult, h.memory, h.block, h.rest, ?_, ?_⟩
  · rintro earlier c src between dest rfl hbetween
    rw [h.memory]
    exact Store.load_of_written earlier hbetween
  · rintro earlier c dest rfl hearlier
    rw [h.memory]
    exact Store.load_of_unwritten hearlier

/-- A standard-capacity card behind a controller that takes its time. -/
def slow : Simulated :=
  { fresh with highCapacity := false, cmdBusyPolls := 5, dataBusyPolls := 1, readerBusyPolls := 2 }

theorem performs_refines_store_slow :
    let o := (Card.bringUp Config.default).run.run slow 3000
    ∃ card n, o.result = .ok (.ok card) ∧ ∀ b, n ≤ b →
      let o' := (card.performs [.writeMemory 0x200 #[1, 2, 3], .writeBlock 3 0x200, .readBlock 3 0x280]).run o.device b
      o'.result = .ok [none, some .ok, some .ok] ∧
        o'.device.memory.load 0x280 512 = (o.device.memory.store 0x200 #[1, 2, 3]).load 0x200 512 := by
  have hreturns : Driver.returns (Card.bringUp Config.default) slow 3000 fun _ => true := by decide +kernel
  obtain ⟨card, -, hresult⟩ := Driver.exists_of_returns hreturns
  have hcapacity : ((Card.bringUp Config.default).run.run slow 3000).device.highCapacity = false := by decide +kernel
  have hcalm : ((Card.bringUp Config.default).run.run slow 3000).device.Calm :=
    ⟨by decide +kernel, by decide +kernel, by decide +kernel⟩
  have hcorruption : ((Card.bringUp Config.default).run.run slow 3000).device.readCorruption = [] := by decide +kernel
  have hempty : ((Card.bringUp Config.default).run.run slow 3000).device.blocks.isEmpty := by decide +kernel
  have hblocks (address : UInt32) :
      (((Card.bringUp Config.default).run.run slow 3000).device.block address).size = 512 := by
    rw [Simulated.block, Std.TreeMap.getD_of_isEmpty hempty]
    exact Array.size_replicate
  have hfits : ∀ call ∈ [.writeMemory 0x200 #[1, 2, 3], .writeBlock 3 0x200, .readBlock 3 0x280],
      HostCall.Fits ((Card.bringUp Config.default).run.run slow 3000).device.highCapacity call := by
    rw [hcapacity]
    decide
  obtain ⟨n, hruns⟩ := performs_refines_store rfl rfl rfl hresult rfl hcalm hcorruption hblocks hfits
  refine ⟨card, n, hresult, fun b hb => ?_⟩
  have hrun := hruns b hb
  generalize ((Card.bringUp Config.default).run.run slow 3000).device = s at hrun ⊢
  obtain ⟨hstatuses, -, -, -, hwritten, -⟩ := hrun
  exact ⟨hstatuses, hwritten [.writeMemory 0x200 #[1, 2, 3]] 3 0x200 [] 0x280 rfl nofun⟩

end Simulated

end SecureDigital

import SecureDigital.Proofs.BringUp.Scratch
import SecureDigital.Proofs.BringUp.Script
import SecureDigital.Proofs.Path
import SecureDigital.Proofs.Simulated.Commands

/-!
# What a bring-up leaves alone on the simulator

On the simulator nothing but a command or the driver itself stores to memory, and the commands that do store where the
DMA writer points. So the accesses that a bring-up is admitted to (`Config.Admits`) keep a simulator `Untouched`: its
blocks and all memory outside the buffer stay as they were, whatever is scripted and however the run ends
(`bringUp_keeps_to_scratch`).
-/

namespace SecureDigital

/-- The byte at `address` is not in the buffer. -/
def Config.Spares (config : Config) (address : UInt32) : Prop :=
  ∀ scratch, config.scratchAddress = some scratch → address.toNat < scratch.toNat ∨ scratch.toNat + 64 ≤ address.toNat

theorem Memory.store_spared {m m' : Memory} {scratch address : UInt32} {bytes : Array UInt8}
    (h : m.store? Simulated.memorySize scratch bytes = some m') (hsize : bytes.size ≤ 64)
    (hspared : address.toNat < scratch.toNat ∨ scratch.toNat + 64 ≤ address.toNat) : m' address = m address := by
  obtain ⟨hroom, rfl⟩ := store?_eq_some_iff.1 h
  refine store_outside ?_
  have hscratch := scratch.toNat_lt
  have haddress := address.toNat_lt
  rw [UInt32.toNat_sub]
  simp only [Simulated.memorySize] at hroom
  omega

theorem Opcode.index_eq_of_ofIndex? {application : Bool} {index : UInt8} {op : Opcode}
    (h : ofIndex? application index = some op) : op.index = index := by
  unfold ofIndex? at h
  cases hown : all.find? fun op => op.index == index && op.isApplication == application with
  | some op' =>
    rw [hown] at h
    obtain rfl : op' = op := Option.some.inj h
    have hfound := List.find?_some hown
    exact eq_of_beq (Bool.and_eq_true_iff.1 hfound).1
  | none =>
    rw [hown] at h
    have hplain : all.find? (fun op => op.index == index && !op.isApplication) = some op := h
    have hfound := List.find?_some hplain
    exact eq_of_beq (Bool.and_eq_true_iff.1 hfound).1

/-- No command is aimed that moves whole blocks. -/
theorem Access.IsAimed.still {front : List Access} {a : Access} {index : UInt8} (h : a.IsAimed front)
    (hindex : a.launched? = some index) : index ∉ [Opcode.readSingleBlock.index, Opcode.writeSingleBlock.index] := by
  intro hblock
  simp only [List.mem_cons, List.not_mem_nil, or_false] at hblock
  rcases hblock with rfl | rfl
  · rcases h _ hindex (by decide) with ⟨hother, -⟩ | ⟨hother, -⟩ <;> exact absurd hother (by decide)
  · rcases h _ hindex (by decide) with ⟨hother, -⟩ | ⟨hother, -⟩ <;> exact absurd hother (by decide)

namespace Simulated

variable {s s₀ t w : Simulated} {config : Config} {front xs : List Access}

/-- Only four commands move data: two of them to where the DMA writer points, at most 64 bytes. -/
theorem stores_of_answer {issued : Issued} {response : Response} (h : s.answer issued = some (response, w))
    (hblocks : issued.index ∉ [Opcode.readSingleBlock.index, Opcode.writeSingleBlock.index]) :
    w.blocks = s.blocks ∧ (w.memory = s.memory ∨
      ∃ op ∈ [Opcode.switchFunc, .sendScr], Opcode.ofIndex? issued.application issued.index = some op ∧
        ∃ bytes : Array UInt8, bytes.size ≤ 64 ∧ s.memory.store? memorySize s.writerAddress bytes = some w.memory) := by
  unfold answer at h
  split at h
  case h_4 => split at h <;> cases h <;> exact ⟨rfl, .inl rfl⟩
  case h_9 hop =>
    obtain ⟨-, memory, hstore, rfl⟩ := eq_of_return_deliver h
    refine ⟨rfl, .inr ⟨_, by simp, hop, _, ?_, hstore⟩⟩
    rw [Array.size_extract, Vector.size_toArray]
    omega
  case h_10 hop =>
    obtain ⟨-, memory, hstore, rfl⟩ := eq_of_return_deliver h
    exact ⟨rfl, .inr ⟨_, by simp, hop, _, by simp, hstore⟩⟩
  case h_11 hop => exact absurd (by simp [← Opcode.index_eq_of_ofIndex? hop]) hblocks
  case h_12 hop => exact absurd (by simp [← Opcode.index_eq_of_ofIndex? hop]) hblocks
  all_goals
    cases h
    exact ⟨rfl, .inl rfl⟩

/-- After the accesses `front` the simulator still has the blocks and the memory of `s₀`, but for the buffer. The DMA writer
points at the buffer once it points anywhere, and the card knows whether APP_CMD came last. -/
structure Untouched (config : Config) (s₀ : Simulated) (front : List Access) (s : Simulated) : Prop where
  blocks : s.blocks = s₀.blocks
  memory : ∀ address, config.Spares address → s.memory address = s₀.memory address
  aimed : (∃ address, .write .writerAddress address ∈ front) → config.scratchAddress = some s.writerAddress
  application : ∀ index, lastLaunched front = some index → s.application = (index == Opcode.appCmd.index)

theorem Untouched.start (config : Config) (s : Simulated) : Untouched config s [] s := ⟨rfl, fun _ _ => rfl, nofun, nofun⟩

/-- An access that neither launches a command nor points the DMA writer somewhere. -/
theorem Untouched.congr {a : Access} (h : Untouched config s₀ front s) (hlaunch : a.launched? = none)
    (haim : ∀ address, a ≠ .write .writerAddress address) (hblocks : t.blocks = s.blocks) (hmemory : t.memory = s.memory)
    (hwriter : t.writerAddress = s.writerAddress) (happlication : t.application = s.application) :
    Untouched config s₀ (front ++ [a]) t := by
  have hlast : lastLaunched (front ++ [a]) = lastLaunched front := by
    rw [lastLaunched_append, lastLaunched_eq_none (List.forall_mem_singleton.2 hlaunch), Option.none_or]
  constructor
  case blocks => exact hblocks.trans h.blocks
  case memory => rw [hmemory]; exact h.memory
  case aimed =>
    rintro ⟨address, haddress⟩
    rw [hwriter]
    rcases List.mem_append.1 haddress with haddress | haddress
    · exact h.aimed ⟨address, haddress⟩
    · exact absurd (List.mem_singleton.1 haddress).symm (haim address)
  case application => rw [hlast, happlication]; exact h.application

/-- Where a command stores, the DMA writer points at the buffer: what shares an index with SET_BUS_WIDTH is not a plain
command after APP_CMD. -/
theorem Untouched.scratchAddress_eq {a : Access} {index : UInt8} {op : Opcode} (h : Untouched config s₀ front s)
    (haimed : a.IsAimed front) (hindex : a.launched? = some index) (hstores : op ∈ [Opcode.switchFunc, .sendScr])
    (hop : Opcode.ofIndex? s.application index = some op) : config.scratchAddress = some s.writerAddress := by
  have hmem : op ∈ [Opcode.readSingleBlock, .writeSingleBlock] ++ [Opcode.switchFunc, .sendScr] :=
    List.mem_append_right _ hstores
  have hmoving : index ∈ Opcode.moving.map Opcode.index :=
    Opcode.index_eq_of_ofIndex? hop ▸ List.mem_map_of_mem hmem
  rcases haimed index hindex hmoving with ⟨-, hpointed⟩ | ⟨rfl, hlast⟩
  · exact h.aimed hpointed
  · have happlication : s.application = true := h.application _ hlast
    rw [happlication] at hop
    obtain rfl : Opcode.setBusWidth = op := Option.some.inj hop
    exact absurd hstores (by decide)

theorem Untouched.launch {word : UInt32} (h : Untouched config s₀ front s)
    (haimed : (Access.write .command word).IsAimed front) (hlaunch : s.count.launch word = some t) :
    Untouched config s₀ (front ++ [.write .command word]) t := by
  rw [launch_eq] at hlaunch
  obtain ⟨⟨response, w⟩, hanswer, rfl⟩ := Option.map_eq_some_iff.1 hlaunch
  obtain ⟨hblocks, hmemory⟩ := stores_of_answer hanswer (haimed.still rfl)
  obtain ⟨_, _, _, rfl⟩ := answer_frame hanswer
  constructor
  case blocks => exact hblocks.trans h.blocks
  case memory =>
    intro address hspared
    refine Eq.trans ?_ (h.memory address hspared)
    rcases hmemory with hsame | ⟨op, hstores, hop, bytes, hsize, hstore⟩
    · exact congrFun hsame address
    · exact Memory.store_spared hstore hsize (hspared _ (h.scratchAddress_eq haimed rfl hstores hop))
  case aimed =>
    rintro ⟨address, haddress⟩
    rcases List.mem_append.1 haddress with haddress | haddress
    · exact h.aimed ⟨address, haddress⟩
    · cases List.mem_singleton.1 haddress
  case application =>
    intro index hlast
    rw [lastLaunched_append] at hlast
    obtain rfl := Option.some.inj hlast
    rfl

theorem Untouched.step {a : Access} (h : Untouched config s₀ front s) (ha : a.Step s t) (hadmits : config.Admits front a) :
    Untouched config s₀ (front ++ [a]) t := by
  cases ha with
  | @write _ register value hwrite =>
    cases register
    case command => exact h.launch hadmits.isAimed hwrite
    case writerAddress =>
      cases hwrite
      refine ⟨h.blocks, h.memory, fun _ => hadmits.permits, fun index hlast => h.application index ?_⟩
      rw [lastLaunched_append] at hlast
      exact hlast
    case readerLength => exact hadmits.permits.elim
    all_goals
      cases hwrite
      exact h.congr rfl nofun rfl rfl rfl rfl
  | read register =>
    have hsame := uncounted_read s register
    exact h.congr rfl nofun (congrArg (·.blocks) hsame) (congrArg (·.memory) hsame) (congrArg (·.writerAddress) hsame)
      (congrArg (·.application) hsame)
  | readMemory hread =>
    obtain ⟨bytes, -, heq⟩ := Option.map_eq_some_iff.1 hread
    cases heq
    exact h.congr rfl nofun rfl rfl rfl rfl
  | writeMemory => exact hadmits.permits.elim

theorem Untouched.path (h : Untouched config s₀ front s) (hpath : Path s xs t) (hguarded : GuardedFrom config.Admits front xs) :
    Untouched config s₀ (front ++ xs) t := by
  induction hpath generalizing front with
  | nil => rwa [List.append_nil]
  | cons ha _ ih =>
    rw [List.append_cons]
    exact ih (h.step ha hguarded.1) hguarded.2

/-- Whatever the device answers and however the run ends, a bring-up touches memory only through the buffer of its
configuration, if there is one (`Config.Permits`). On the simulator that leaves the blocks and the rest of the memory as they
were. -/
theorem bringUp_keeps_to_scratch (config : Config) :
    (∀ {σ : Type} [Device σ] (s : σ) (b : Nat) (front back : List Access) (a : Access),
      ((Card.bringUp config).run.run s b).accesses = front ++ a :: back → config.Permits front a) ∧
    ∀ (s : Simulated) (b : Nat), ((Card.bringUp config).run.run s b).device.blocks = s.blocks ∧
      ∀ address, config.Spares address →
        ((Card.bringUp config).run.run s b).device.memory address = s.memory address := by
  constructor
  case left =>
    intro σ _ s b front back a hsplit
    have hguarded := Driver.Guarded.bringUp config [] ⟨s, b, rfl, hsplit⟩
    exact hguarded.apply.permits
  case right =>
    intro s b
    obtain ⟨xs, hpath, hend⟩ := Driver.Tracked.compositional.bringUp config s b
    have hguarded := Driver.Guarded.bringUp config [] ⟨s, b, rfl, rfl⟩
    have hxs : xs <+: ((Card.bringUp config).run.run s b).accesses := by
      rcases hend with hall | ⟨-, a, hlast⟩
      · exact hall ▸ List.prefix_rfl
      · exact hlast ▸ List.prefix_append xs [a]
    have hkept := (Untouched.start config s).path hpath (hguarded.truncate hxs)
    exact ⟨hkept.blocks, hkept.memory⟩

/-- A card that answers well, and a simulator whose commands fail and whose memory holds a byte outside the buffer. -/
theorem bringUp_keeps_to_scratch_lent :
    let config : Config := { scratchAddress := some 0x100 }
    let simulator : Simulated := { fresh with cmdEvents := [1, 5, 9, 1, 5], memory := Memory.zero.store 0x1000 #[7] }
    (∃ front back bytes, ((Card.bringUp config).run.run Scripted.willing 3000).accesses =
        front ++ .readMemory 0x100 64 bytes :: back ∧ ∃ argument, JustPassed config
          ((Command.of .switchFunc argument .short).withRead 0x100 Card.switchStatusSize) front) ∧
      ((Card.bringUp config).run.run simulator 3000).device.memory 0x1000 = 7 := by
  intro config simulator
  obtain ⟨hpermits, hkept⟩ := bringUp_keeps_to_scratch config
  constructor
  · have hread : Access.readMemory 0x100 64 ((Array.replicate 64 0).setIfInBounds 16 1) ∈
        ((Card.bringUp config).run.run Scripted.willing 3000).accesses := by decide +kernel
    obtain ⟨front, back, hsplit⟩ := List.append_of_mem hread
    obtain ⟨-, ⟨-, hswitch⟩ | ⟨⟨⟩, -⟩⟩ := hpermits _ _ front back _ hsplit
    exact ⟨front, back, _, hsplit, hswitch⟩
  · refine ((hkept simulator 3000).2 0x1000 fun scratch hscratch => ?_).trans (by decide +kernel)
    obtain rfl : 0x100 = scratch := Option.some.inj hscratch
    decide

end Simulated

end SecureDigital

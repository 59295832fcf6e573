import SecureDigital.Proofs.BringUp.Script
import SecureDigital.Proofs.Simulated.Answers
import SecureDigital.Proofs.Simulated.Commands

/-!
# The bring-up of the simulated card

On a calm simulator, of which nothing else is assumed, a driver that waits brings the card up: it returns
with what the card holds, after one round of the power-up loop for each busy reply and one more
(`bringUp_agrees`). Each stage is one lemma on the simulator that the commands before it have left; what
they have left of it is said by `After`.
-/

namespace SecureDigital

def Issued.launch (c : Issued) : Launch := ⟨c.index, c.argument⟩

/-- The driver waits for the end of both phases of a command. -/
structure Config.Waits (config : Config) : Prop where
  cmdPoll : config.cmdPoll = .unbounded
  dataPoll : config.dataPoll = .unbounded

theorem Launch.bringUpScript_of_scratch {config : Config} {scratch : UInt32}
    (hscratch : config.scratchAddress = some scratch) (rounds : Nat) (address : UInt32) :
    bringUpScript config rounds address =
      resetScript ++ powerUpRounds rounds ++ identifyScript ++ [⟨10, address⟩, ⟨9, address⟩] ++
        [⟨7, address⟩] ++ [⟨55, address⟩, ⟨6, 2⟩] ++
        [⟨6, Card.switchArgument Card.accessModeGroup config.accessMode.code⟩,
          ⟨6, Card.switchArgument Card.driverStrengthGroup config.driverStrength.code⟩] ++
        [⟨55, address⟩, ⟨51, 0⟩] ++ [⟨16, 512⟩] := by
  rw [Card.switchArgument_accessMode, Card.switchArgument_driverStrength]
  simp [bringUpScript, addressedScript, hscratch]

def Card.withSwitchStatus (card : Card) (status : SwitchStatus) : Card :=
  { card with info := { card.info with switchStatus := some status } }

namespace Simulated

/-- What a bring-up changes in the simulator with every command. -/
structure Progress where
  issued : List Issued
  memory : Memory
  blockSize : UInt32
  writerAddress : UInt32

def Progress.heard (p : Progress) (c : Issued) : Progress := { p with issued := p.issued ++ [c] }

/-- The simulator `v` in the course of a bring-up. -/
def during (v : Simulated) (busy : Nat) (application : Bool) (p : Progress) : Simulated :=
  { v with
    ocrBusyReplies := busy, application, issued := p.issued, memory := p.memory, blockSize := p.blockSize
    writerAddress := p.writerAddress }

/-- The simulator is what the commands `ls` of a bring-up make of `v`, with `busy` power-up replies left
that report a busy card. -/
structure After (v : Simulated) (busy : Nat) (application : Bool) (ls : List Launch) (s : Simulated) : Prop where
  calm : v.Calm
  rest : ∃ p : Progress, s.atRest = v.during busy application p ∧
    p.issued.map Issued.launch = v.issued.map Issued.launch ++ ls

/-- The access mode that the card is at when it has been asked for `mode`. -/
def grantedMode (s : Simulated) (mode : AccessMode) : AccessMode :=
  if s.rejectedGroups.contains 1 then .sdr12 else mode

variable {s s' v : Simulated} {config : Config} {c : Command} {card : Card}

theorem succeeds_step {Q : Reply → Simulated → Prop} (h : (c.execute config : Driver Simulated Reply).Achieves s Q)
    (hok : ∀ reply s', Q reply s' → reply.status = .ok) : Fallible.Succeeds (Card.step config c) s Q := by
  refine .lift_bind h fun reply s' hQ => ?_
  rw [if_pos (hok reply s' hQ)]
  exact .pure hQ

theorem succeeds_readMemory {α : Type} {address : UInt32} {length : Nat} {bytes : Vector UInt8 length}
    {f : Vector UInt8 length → Fallible Simulated α} {Q : α → Simulated → Prop}
    (hroom : address.toNat + length ≤ memorySize) (hbytes : s.memory.load address length = bytes)
    (hf : Fallible.Succeeds (f bytes) s Q) :
    Fallible.Succeeds (ExceptT.lift (Driver.readMemory address length) >>= f) s Q := by
  refine .lift_bind (achieves_readMemory hroom) ?_
  rintro _ _ ⟨rfl, rfl⟩
  rw [hbytes]
  exact hf

namespace After

variable {busy : Nat} {application : Bool} {ls : List Launch} {response : Response}

theorem start (hcalm : s.Calm) : After s.atRest s.ocrBusyReplies s.application [] s where
  calm := hcalm.atRest
  rest := ⟨⟨s.issued, s.memory, s.blockSize, s.writerAddress⟩, rfl, (List.append_nil _).symm⟩

theorem congr (h : After v busy application ls s) (hs' : s'.atRest = s.atRest) : After v busy application ls s' := by
  obtain ⟨hcalm, p, hrest, hissued⟩ := h
  exact ⟨hcalm, p, hs'.trans hrest, hissued⟩

theorem still_calm (h : After v busy application ls s) : s.Calm := by
  obtain ⟨hv, p, hrest, -⟩ := h
  have hcalm : (v.during busy application p).Calm := ⟨hv.cmdEvents, hv.dataEvents, hv.nextResponse⟩
  exact .of_atRest (hrest ▸ hcalm)

theorem heard {p : Progress} (h : p.issued.map Issued.launch = v.issued.map Issued.launch ++ ls) (c : Issued) :
    (p.heard c).issued.map Issued.launch = v.issued.map Issued.launch ++ (ls ++ [c.launch]) := by
  rw [Progress.heard, List.map_append, h, List.append_assoc]
  rfl

/-- A command without a data phase, on a card whose answer to it is known. -/
theorem execute {op : Opcode} {argument : UInt32} {kind : ResponseKind} (busy' : Nat) (response : Response)
    (hwaits : config.Waits) (h : After v busy application ls s)
    (hrespond : ∀ p, (v.during busy application p).respond (.of op argument kind) =
      some (response, v.during busy' (op.index == Opcode.appCmd.index) (p.heard ⟨op.index, argument, application⟩))) :
    ((Command.of op argument kind).execute config : Driver Simulated Reply).Achieves s fun reply s' =>
      reply = ⟨.ok, .ok, kind.keep response⟩ ∧
        After v busy' (op.index == Opcode.appCmd.index) (ls ++ [⟨op.index, argument⟩]) s' := by
  have hcalm := h.still_calm
  obtain ⟨hv, p, hrest, hissued⟩ := h
  have hanswer := hrespond p
  rw [← hrest] at hanswer
  refine (achieves_execute hwaits.cmdPoll hwaits.dataPoll hcalm (Opcode.index_lt op) hanswer).imp fun reply s' hs' => ?_
  exact ⟨hs'.1, hv, _, hs'.2, heard hissued _⟩

theorem step {op : Opcode} {argument : UInt32} {kind : ResponseKind} (response : Response) (hwaits : config.Waits)
    (h : After v busy application ls s)
    (hrespond : ∀ p, (v.during busy application p).respond (.of op argument kind) =
      some (response, v.during busy (op.index == Opcode.appCmd.index) (p.heard ⟨op.index, argument, application⟩))) :
    Fallible.Succeeds (Card.step config (.of op argument kind)) s fun reply s' =>
      reply = ⟨.ok, .ok, kind.keep response⟩ ∧
        After v busy (op.index == Opcode.appCmd.index) (ls ++ [⟨op.index, argument⟩]) s' :=
  succeeds_step (h.execute busy response hwaits hrespond) fun reply s' hs' => by rw [hs'.1]

/-! ### Before the power-up -/

/-- The card may have heard APP_CMD before: GO_IDLE_STATE means the same to it. -/
theorem reset (hwaits : card.config.Waits) (h : After v busy application ls s) :
    Fallible.Succeeds (Card.reset card) s fun card' s' =>
      card' = card.inState .readyWait ∧ After v busy false (ls ++ Launch.resetScript) s' := by
  have hidle (p : Progress) : (v.during busy application p).respond (.of .goIdleState 0 .none) =
      some (.zero, v.during busy false (p.heard ⟨0, 0, application⟩)) := by
    cases application <;> rfl
  refine .notes_bind ((h.step .zero hwaits hidle).bind fun _ s₁ ⟨_, h₁⟩ => ?_)
  let echo : Response := oneWord (Card.interfaceCondition &&& 0xFFF)
  refine .notes_bind ((h₁.step echo hwaits fun _ => rfl).bind fun _ s₂ ⟨_, h₂⟩ => ?_)
  rw [List.append_assoc] at h₂
  exact .notes_bind (.pure ⟨rfl, h₂⟩)

/-! ### The power-up loop -/

theorem idle_round (hwaits : config.Waits) (h : After v (busy + 1) false ls s) :
    (Card.powerUpRound config).Achieves s fun r s' =>
      r = none ∧ After v busy false (ls ++ Launch.powerUpRounds 1) s' := by
  refine (h.execute _ (oneWord (statusWord ||| appCmdBit)) hwaits fun _ => rfl).bind fun _ s₁ ⟨_, h₁⟩ => ?_
  refine (h₁.execute busy (oneWord busyWord) hwaits fun _ => rfl).bind fun reply s₂ ⟨hreply, h₂⟩ => ?_
  have hshort : reply.short = busyWord := by rw [hreply]; rfl
  have hbit : ¬ testBit busyWord 31 := by rw [testBit_busyWord]; exact Bool.false_ne_true
  rw [hshort, if_neg hbit]
  refine (achieves_delay _ _ s₂).bind fun _ s₃ h₃ => .pure ⟨rfl, ?_⟩
  rw [List.append_assoc] at h₂
  exact h₂.congr h₃

theorem last_round (hwaits : config.Waits) (h : After v 0 false ls s) :
    (Card.powerUpRound config).Achieves s fun r s' =>
      r = some v.readyWord ∧ After v 0 false (ls ++ Launch.powerUpRounds 1) s' := by
  refine (h.execute 0 (oneWord (statusWord ||| appCmdBit)) hwaits fun _ => rfl).bind fun _ s₁ ⟨_, h₁⟩ => ?_
  refine (h₁.execute 0 (oneWord v.readyWord) hwaits fun _ => rfl).bind fun reply s₂ ⟨hreply, h₂⟩ => ?_
  have hshort : reply.short = v.readyWord := by rw [hreply]; rfl
  rw [hshort, if_pos v.testBit_readyWord.1]
  rw [List.append_assoc] at h₂
  exact .pure ⟨rfl, h₂⟩

/-- As many rounds as there are busy replies, and the one that reports power-up. -/
theorem powerUp (hwaits : card.config.Waits) (hlimit : card.config.ocrAttempts.Allows busy)
    (h : After v busy false ls s) :
    Fallible.Succeeds (Card.powerUp card) s fun card' s' =>
      card' = { card with info := card.info.poweredUp v.readyWord }.inState .identification ∧
        After v 0 false (ls ++ Launch.powerUpRounds (busy + 1)) s' := by
  -- After `j` rounds `i` busy replies are left.
  let rounds (i : Nat) (t : Simulated) : Prop := ∃ j, j + i = busy ∧ After v i false (ls ++ Launch.powerUpRounds j) t
  have hround (t : Simulated) (i j : Nat)
      (ht : After v i false (ls ++ Launch.powerUpRounds j ++ Launch.powerUpRounds 1) t) :
      After v i false (ls ++ Launch.powerUpRounds (j + 1)) t := by
    have hrounds : Launch.powerUpRounds j ++ Launch.powerUpRounds 1 = Launch.powerUpRounds (j + 1) :=
      (Launch.powerUpRounds_succ j).symm
    rwa [List.append_assoc, hrounds] at ht
  have hidle (i : Nat) (t : Simulated) (ht : rounds (i + 1) t) :
      (Card.powerUpRound card.config).Achieves t fun r t' => r = none ∧ rounds i t' := by
    obtain ⟨j, hj, ht⟩ := ht
    exact (ht.idle_round hwaits).imp fun r t' ⟨hr, ht'⟩ => ⟨hr, j + 1, by omega, hround t' i j ht'⟩
  have hlast (t : Simulated) (ht : rounds 0 t) : (Card.powerUpRound card.config).Achieves t fun r t' =>
      ∃ ocr, r = some ocr ∧ ocr = v.readyWord ∧ After v 0 false (ls ++ Launch.powerUpRounds (busy + 1)) t' := by
    obtain ⟨j, rfl, ht⟩ := ht
    exact (ht.last_round hwaits).imp fun r t' ⟨hr, ht'⟩ => ⟨v.readyWord, hr, rfl, hround t' 0 j ht'⟩
  have hstart : rounds busy s := ⟨0, Nat.zero_add busy, (List.append_nil ls).symm ▸ h⟩
  refine .notes_bind (.lift_bind (Driver.Achieves.poll (.powerUpRound _) hlimit hidle hlast hstart) ?_)
  rintro _ s' ⟨ocr, rfl, rfl, h'⟩
  exact .notes_bind (.pure ⟨rfl, h'⟩)

/-! ### The card's registers -/

theorem identify (hwaits : card.config.Waits) (h : After v busy false ls s) :
    Fallible.Succeeds (Card.identify card) s fun card' s' =>
      card' = { card with session := ⟨v.rca, .standBy⟩ } ∧ After v busy false (ls ++ Launch.identifyScript) s' := by
  refine .notes_bind ((h.step (.ofRegister v.cid) hwaits fun _ => rfl).bind fun _ s₁ ⟨_, h₁⟩ => ?_)
  let published : Response := oneWord ((v.rca.toUInt32 <<< 16) ||| 0x500)
  refine .notes_bind (.notes_bind ((h₁.step published hwaits fun _ => rfl).bind fun reply s₂ ⟨hreply, h₂⟩ => ?_))
  have hrca : reply.onSuccess Reply.relativeAddress = some v.rca := by
    rw [hreply]
    exact congrArg some (relativeAddress_word v.rca)
  rw [List.append_assoc] at h₂
  rw [hrca]
  exact .notes_bind (.pure ⟨rfl, h₂⟩)

theorem readRegisters (hwaits : card.config.Waits) (h : After v busy false ls s) :
    Fallible.Succeeds (Card.readRegisters card) s fun card' s' =>
      card' = { card with info := { card.info with
        cid := some (Cid.decode (v.cid >>> 8)), csd := some (Csd.decode (v.csd >>> 8)) } } ∧
      After v busy false (ls ++ [⟨10, card.session.addressArgument⟩, ⟨9, card.session.addressArgument⟩]) s' := by
  refine .notes_bind ((h.step (.ofRegister v.cid) hwaits fun _ => rfl).bind fun reply s₁ ⟨hreply, h₁⟩ => ?_)
  refine .notes_bind ((h₁.step (.ofRegister v.csd) hwaits fun _ => rfl).bind fun reply' s₂ ⟨hreply', h₂⟩ => ?_)
  have hcid : (reply.onSuccess fun r => Cid.decode r.long) = some (Cid.decode (v.cid >>> 8)) := by
    rw [hreply, ← Response.long_ofRegister]
    rfl
  have hcsd : (reply'.onSuccess fun r => Csd.decode r.long) = some (Csd.decode (v.csd >>> 8)) := by
    rw [hreply', ← Response.long_ofRegister]
    rfl
  rw [List.append_assoc] at h₂
  rw [hcid, hcsd]
  exact .notes_bind (.pure ⟨rfl, h₂⟩)

theorem select (hwaits : card.config.Waits) (h : After v busy false ls s) :
    Fallible.Succeeds (Card.select card) s fun card' s' =>
      card' = card.inState (.transfer .sdr12) ∧ After v busy false (ls ++ [⟨7, card.session.addressArgument⟩]) s' := by
  refine .notes_bind ((h.step (oneWord statusWord) hwaits fun _ => rfl).bind fun reply s₁ ⟨hreply, h₁⟩ => ?_)
  have hok : reply.status = .ok := by rw [hreply]
  rw [if_pos hok]
  exact .pure ⟨rfl, h₁⟩

theorem applicationStep {Q : Reply → Simulated → Prop} (hwaits : card.config.Waits) (h : After v busy false ls s)
    (hstep : ∀ s', After v busy true (ls ++ [⟨55, card.session.addressArgument⟩]) s' →
      Fallible.Succeeds (Card.step card.config c) s' Q) :
    Fallible.Succeeds (Card.applicationStep card c) s Q :=
  (h.step (oneWord (statusWord ||| appCmdBit)) hwaits fun _ => rfl).bind fun _ s' ⟨_, h'⟩ => hstep s' h'

theorem widenBus (hwaits : card.config.Waits) (h : After v busy false ls s) :
    Fallible.Succeeds (Card.widenBus card) s fun card' s' =>
      card' = card ∧ After v busy false (ls ++ [⟨55, card.session.addressArgument⟩, ⟨6, 2⟩]) s' := by
  refine .notes_bind ((h.applicationStep hwaits fun s₁ h₁ =>
    h₁.step (oneWord statusWord) hwaits fun _ => rfl).bind fun _ s₂ ⟨_, h₂⟩ => ?_)
  rw [List.append_assoc] at h₂
  exact .pure ⟨rfl, h₂⟩

/-! ### What the card sends through memory -/

theorem application_eq (h : After v busy application ls s) : s.atRest.application = application := by
  obtain ⟨-, p, hrest, -⟩ := h
  rw [hrest]
  rfl

theorem switchStatus_eq (h : After v busy application ls s) (argument : UInt32) :
    s.atRest.switchStatus argument = v.switchStatus argument := by
  obtain ⟨-, p, hrest, -⟩ := h
  rw [hrest]
  rfl

theorem scr_eq (h : After v busy application ls s) : s.atRest.scr = v.scr := by
  obtain ⟨-, p, hrest, -⟩ := h
  rw [hrest]
  rfl

/-- A command that the card answers by sending a block: it is at `dest` when the command is over. -/
theorem stepRead {op : Opcode} {argument dest size : UInt32} {length : Nat} {bytes : Vector UInt8 length}
    (hwaits : config.Waits) (h : After v busy application ls s) (hlength : length ≤ UInt32.size)
    (hrespond : s.atRest.respond ((Command.of op argument .short).withRead dest size) =
      some (response, s.atRest.sent ⟨op.index, argument, application⟩ dest size bytes.toArray)) :
    Fallible.Succeeds (Card.step config ((Command.of op argument .short).withRead dest size)) s fun reply s' =>
      reply.status = .ok ∧ s'.memory.load dest length = bytes ∧
        After v busy (op.index == Opcode.appCmd.index) (ls ++ [⟨op.index, argument⟩]) s' := by
  have hcalm := h.still_calm
  obtain ⟨hv, p, hrest, hissued⟩ := h
  have hindex : ((Command.of op argument .short).withRead dest size).index < 64 := Opcode.index_lt op
  have hexecute := achieves_execute hwaits.cmdPoll hwaits.dataPoll hcalm hindex hrespond
  refine (succeeds_step hexecute fun reply s' hs' => by rw [hs'.1]).imp fun reply s' ⟨hreply, hs'⟩ => ?_
  have hmemory : s'.memory = s.atRest.memory.store dest bytes.toArray := congrArg Simulated.memory hs'
  refine ⟨by rw [hreply], ?_, hv, ⟨p.issued ++ [⟨op.index, argument, application⟩],
    p.memory.store dest bytes.toArray, size, dest⟩, ?_, heard hissued _⟩
  · rw [hmemory]
    exact Memory.load_store_vector _ _ _ hlength
  · rw [hs', hrest]
    rfl

/-- The driver learns what the card grants, and whether that is what it has asked for. -/
theorem switchFunction (card : Card) (group : Fin 6) {scratch : UInt32} {function : BitVec 4}
    (hwaits : card.config.Waits) (hroom : scratch.toNat + 64 ≤ memorySize) (hfunction : function ≠ 0xF)
    (h : After v busy false ls s) :
    Fallible.Succeeds (Card.switchFunction card scratch group function) s fun r s' =>
      r = (!v.rejectedGroups.contains (group + 1),
        card.withSwitchStatus (.decode (v.switchStatus (Card.switchArgument group function)))) ∧
      After v busy false (ls ++ [⟨6, Card.switchArgument group function⟩]) s' := by
  have hrespond := respond_switchFunc (Card.switchArgument group function) h.application_eq hroom
  rw [h.switchStatus_eq] at hrespond
  refine .notes_bind ((h.stepRead hwaits (by decide) hrespond).bind fun reply s₁ ⟨hok, hblock, h₁⟩ => ?_)
  rw [if_pos hok]
  have htaken : decide ((SwitchStatus.decode (v.switchStatus (Card.switchArgument group function))).selectedIn group =
      function) = !v.rejectedGroups.contains (group + 1) := by
    rw [selectedIn_switchStatus, grant_switchArgument hfunction]
    cases v.rejectedGroups.contains (group + 1) with
    | false => simp
    | true => simpa using Ne.symm hfunction
  refine succeeds_readMemory hroom hblock (.notes_bind (.pure ⟨?_, h₁⟩))
  rw [htaken]
  rfl

/-- The card is left at the requested speed, unless it refuses it. -/
theorem switchFunctions {scratch : UInt32} (hwaits : card.config.Waits)
    (hscratch : card.config.scratchAddress = some scratch) (hroom : scratch.toNat + 64 ≤ memorySize)
    (hstate : card.session.state = .transfer .sdr12)
    (h : After v busy false ls s) :
    Fallible.Succeeds (Card.switchFunctions card) s fun card' s' =>
      card' = (card.inState (.transfer (v.grantedMode card.config.accessMode))).withSwitchStatus
        (.decode (v.switchStatus (Card.switchArgument Card.driverStrengthGroup card.config.driverStrength.code))) ∧
      After v busy false (ls ++ [⟨6, Card.switchArgument Card.accessModeGroup card.config.accessMode.code⟩,
        ⟨6, Card.switchArgument Card.driverStrengthGroup card.config.driverStrength.code⟩]) s' := by
  have hmode : card.config.accessMode.code ≠ 0xF := by cases card.config.accessMode <;> decide
  have hstrength : card.config.driverStrength.code ≠ 0xF := by cases card.config.driverStrength <;> decide
  have hgranted (status : SwitchStatus) :
      (if !v.rejectedGroups.contains (Card.accessModeGroup + 1) then
          (card.withSwitchStatus status).inState (.transfer card.config.accessMode)
        else card.withSwitchStatus status) =
      (card.inState (.transfer (v.grantedMode card.config.accessMode))).withSwitchStatus status := by
    unfold grantedMode
    show (if !v.rejectedGroups.contains 1 then _ else _) = _
    cases v.rejectedGroups.contains 1 with
    | false => rfl
    | true =>
      show card.withSwitchStatus status = (card.inState (.transfer .sdr12)).withSwitchStatus status
      rw [Card.inState, ← hstate]
  unfold Card.switchFunctions
  rw [hscratch]
  refine (h.switchFunction card _ hwaits hroom hmode).bind ?_
  rintro _ s₁ ⟨rfl, h₁⟩
  dsimp only
  rw [hgranted]
  -- The second status block replaces the first one.
  generalize SwitchStatus.decode (v.switchStatus (Card.switchArgument Card.accessModeGroup _)) = status
  have hsecond := h₁.switchFunction (.withSwitchStatus (card.inState (.transfer (v.grantedMode card.config.accessMode)))
    status) Card.driverStrengthGroup hwaits hroom hstrength
  refine hsecond.bind ?_
  rintro _ s₂ ⟨rfl, h₂⟩
  rw [List.append_assoc] at h₂
  exact .pure ⟨rfl, h₂⟩

theorem setClock (h : After v busy application ls s) :
    Fallible.Succeeds (Card.setClock card) s fun card' s' => card' = card ∧ After v busy application ls s' :=
  .lift_bind (achieves_program _ s) fun _ _ hs' => .pure ⟨rfl, h.congr hs'⟩

theorem readScr {scratch : UInt32} (hwaits : card.config.Waits) (hscratch : card.config.scratchAddress = some scratch)
    (hroom : scratch.toNat + 64 ≤ memorySize) (h : After v busy false ls s) :
    Fallible.Succeeds (Card.readScr card) s fun card' s' =>
      card' = { card with info := { card.info with scr := some (Scr.decode v.scr) } } ∧
        After v busy false (ls ++ [⟨55, card.session.addressArgument⟩, ⟨51, 0⟩]) s' := by
  unfold Card.readScr
  rw [hscratch]
  have hsend (s₁ : Simulated) (h₁ : After v busy true (ls ++ [⟨55, card.session.addressArgument⟩]) s₁) :
      s₁.atRest.respond ((Command.of .sendScr 0 .short).withRead scratch Card.scrSize) =
        some (oneWord statusWord, s₁.atRest.sent ⟨51, 0, true⟩ scratch Card.scrSize v.scr.toArray) := by
    rw [← h₁.scr_eq]
    exact respond_sendScr 0 h₁.application_eq (by omega)
  have hstep (s₁ : Simulated) (h₁ : After v busy true (ls ++ [⟨55, card.session.addressArgument⟩]) s₁) :=
    h₁.stepRead hwaits (by decide) (hsend s₁ h₁)
  refine .notes_bind ((h.applicationStep hwaits hstep).bind fun reply s₂ ⟨hok, hblock, h₂⟩ => ?_)
  rw [List.append_assoc] at h₂
  rw [if_pos hok]
  exact succeeds_readMemory (by omega) hblock (.notes_bind (.pure ⟨rfl, h₂⟩))

theorem setBlockLength (hwaits : card.config.Waits) (h : After v busy false ls s) :
    Fallible.Succeeds (Card.setBlockLength card) s fun card' s' =>
      card' = card ∧ After v busy false (ls ++ [⟨16, 512⟩]) s' :=
  .notes_bind ((h.step (oneWord statusWord) hwaits fun _ => rfl).bind fun _ _ ⟨_, h₁⟩ =>
    .notes_bind (.pure ⟨rfl, h₁⟩))

end After

variable {scratch : UInt32}

/-- What the driver knows of a card that it has brought up. -/
def broughtUp (s : Simulated) (config : Config) : Card where
  config
  session := ⟨s.rca, .transfer (s.grantedMode config.accessMode)⟩
  info := {
    ocr := s.readyWord
    highCapacity := testBit s.readyWord 30
    cid := some (Cid.decode (s.cid >>> 8))
    csd := some (Csd.decode (s.csd >>> 8))
    scr := some (Scr.decode s.scr)
    switchStatus := some (SwitchStatus.decode
      (s.switchStatus (Card.switchArgument Card.driverStrengthGroup config.driverStrength.code))) }

theorem succeeds_bringUp (hwaits : config.Waits) (hcalm : s.Calm) (hscratch : config.scratchAddress = some scratch)
    (hroom : scratch.toNat + 64 ≤ memorySize) (hlimit : config.ocrAttempts.Allows s.ocrBusyReplies) :
    Fallible.Succeeds (Card.bringUp config) s fun card s' =>
      card = s.broughtUp config ∧ After s.atRest 0 false
        (Launch.bringUpScript config (s.ocrBusyReplies + 1) (s.rca.toUInt32 <<< 16)) s' := by
  refine .lift_bind (achieves_prepare config s) fun _ s₁ hs₁ => ?_
  have h₁ := (After.start hcalm).congr hs₁
  refine (h₁.reset hwaits).bind ?_
  rintro _ s₂ ⟨rfl, h₂⟩
  refine (h₂.powerUp hwaits hlimit).bind ?_
  rintro _ s₃ ⟨rfl, h₃⟩
  refine (h₃.identify hwaits).bind ?_
  rintro _ s₄ ⟨rfl, h₄⟩
  refine (h₄.readRegisters hwaits).bind ?_
  rintro _ s₅ ⟨rfl, h₅⟩
  refine (h₅.select hwaits).bind ?_
  rintro _ s₆ ⟨rfl, h₆⟩
  refine (h₆.widenBus hwaits).bind ?_
  rintro _ s₇ ⟨rfl, h₇⟩
  refine (h₇.switchFunctions hwaits hscratch hroom rfl).bind ?_
  rintro _ s₈ ⟨rfl, h₈⟩
  refine h₈.setClock.bind ?_
  rintro _ s₉ ⟨rfl, h₉⟩
  refine (h₉.readScr hwaits hscratch hroom).bind ?_
  rintro _ s₁₀ ⟨rfl, h₁₀⟩
  refine (h₁₀.setBlockLength hwaits).imp ?_
  rintro _ s₁₁ ⟨rfl, h₁₁⟩
  refine ⟨rfl, ?_⟩
  rw [Launch.bringUpScript_of_scratch hscratch]
  exact h₁₁

/-- The driver and the card agree on everything that the driver has asked for. -/
theorem bringUp_agrees (hcmd : config.cmdPoll = .unbounded) (hdata : config.dataPoll = .unbounded) (hcalm : s.Calm)
    (hscratch : config.scratchAddress = some scratch) (hroom : scratch.toNat + 64 ≤ memorySize)
    (hlimit : config.ocrAttempts.Allows s.ocrBusyReplies) :
    ∃ n, ∀ b, n ≤ b →
      let o := (Card.bringUp config).run.run s b
      ∃ card status, o.result = .ok (.ok card) ∧
        o.device.issued.map Issued.launch = s.issued.map Issued.launch ++
          Launch.bringUpScript config (s.ocrBusyReplies + 1) (s.rca.toUInt32 <<< 16) ∧
        card.session.rca = s.rca ∧
        card.info.highCapacity = s.highCapacity ∧
        card.info.cid = some (Cid.decode (s.cid >>> 8)) ∧
        card.info.csd = some (Csd.decode (s.csd >>> 8)) ∧
        card.info.scr = some (Scr.decode s.scr) ∧
        card.session.state = .transfer (if s.rejectedGroups.contains 1 then .sdr12 else config.accessMode) ∧
        card.info.switchStatus = some status ∧
        status.selected? 3 = some (if s.rejectedGroups.contains 3 then 0xF else config.driverStrength.code) := by
  have hstrength : config.driverStrength.code ≠ 0xF := by cases config.driverStrength <;> decide
  have hrun := succeeds_bringUp ⟨hcmd, hdata⟩ hcalm hscratch hroom hlimit
  obtain ⟨n, hreturns⟩ := Driver.Achieves.exists_budget hrun
  refine ⟨n, fun b hb => ?_⟩
  obtain ⟨_, hresult, card, rfl, rfl, -, p, hrest, hissued⟩ := hreturns b hb
  refine ⟨_, _, hresult, ?_, rfl, s.testBit_readyWord.2, rfl, rfl, rfl, rfl, rfl, ?_⟩
  · have heq : ((Card.bringUp config).run.run s b).device.issued = p.issued := congrArg Simulated.issued hrest
    rw [heq, hissued]
    rfl
  · refine congrArg some ((s.selectedIn_switchStatus _ Card.driverStrengthGroup).trans ?_)
    exact grant_switchArgument hstrength

/-- A card that has heard APP_CMD before, is not powered up at once and refuses group 1. -/
def reluctant : Simulated :=
  { fresh with cmdBusyPolls := 3, ocrBusyReplies := 2, rejectedGroups := [1], application := true }

theorem bringUp_agrees_reluctant :
    ∃ n, ∀ b, n ≤ b →
      let o := (Card.bringUp { ocrAttempts := .attempts 3, scratchAddress := some 0x3FC0 }).run.run reluctant b
      ∃ card status, o.result = .ok (.ok card) ∧ card.session = ⟨0xB368, .transfer .sdr12⟩ ∧
        card.info.switchStatus = some status ∧ status.selected? 3 = some 3 := by
  have hlimit : (PollLimit.attempts 3).Allows reluctant.ocrBusyReplies := by
    rintro _ ⟨⟩
    decide
  have hcmd : Config.cmdPoll { ocrAttempts := .attempts 3, scratchAddress := some 0x3FC0 } = .unbounded := rfl
  have hcalm : reluctant.Calm := ⟨rfl, rfl, rfl⟩
  obtain ⟨n, hruns⟩ := bringUp_agrees hcmd rfl hcalm rfl (by decide) hlimit
  refine ⟨n, fun b hb => ?_⟩
  obtain ⟨card, status, hresult, -, hrca, -, -, -, -, hstate, hstatus, hselected⟩ := hruns b hb
  refine ⟨card, status, hresult, ?_, hstatus, hselected⟩
  obtain ⟨_, ⟨rca, state⟩, _⟩ := card
  exact congr (congrArg Session.mk hrca) hstate

end Simulated

end SecureDigital

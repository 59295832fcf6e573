import SecureDigital.Proofs.BringUp.PowerUp

/-!
# The stages of the bring-up after power-up

What the driver knows of a card is what the exchanges have taught it, one after the other:
`Card.learn card e` is the card after the exchange `e`. `Stage f script` says that `f` goes through
`script`, whose addressed commands carry the card's address, and returns the card that has learned from
the exchanges, having read the data of every command that brought some. Every stage is a `Stage`, and so
is a sequence of two (`Stage.andThen`), as long as the first does not change the address.
-/

namespace SecureDigital

/-- Whether the command switches a function. SET_BUS_WIDTH has the same index as SWITCH_FUNC, but not the
mode bit in its argument. -/
def Launch.isSwitch (l : Launch) : Bool := l.index = 6 ∧ testBit l.argument 31

/-- Whether the driver learns something about the card from the command. -/
def Launch.isInformative (l : Launch) : Bool := l.index ∈ [3, 7, 9, 10, 51] || l.isSwitch

/-- Whether the command brings data to the scratch buffer. -/
def Launch.readsBack (l : Launch) : Bool := l.index = 51 || l.isSwitch

namespace Exchange

/-- The status block of a switch, as it was read from the scratch buffer. -/
def switchBlock? (config : Config) (e : Exchange) : Option (Vector UInt8 64) :=
  config.scratchAddress.bind (e.block? · 64)

/-- The SCR, as it was read from the scratch buffer. -/
def scrBlock? (config : Config) (e : Exchange) : Option (Vector UInt8 8) :=
  config.scratchAddress.bind (e.block? · 8)

/-- Whether the data that the exchange brought have been read. -/
structure Delivered (config : Config) (e : Exchange) : Prop where
  switch : e.launch.isSwitch → e.status = .ok → (e.switchBlock? config).isSome
  scr : e.index = 51 → e.status = .ok → (e.scrBlock? config).isSome

theorem delivered_of_launch {config : Config} {e : Exchange} {l : Launch} (he : e.launch = l)
    (h : l.readsBack = false) : e.Delivered config := by
  subst he
  simp only [Launch.readsBack, Bool.or_eq_false_iff, decide_eq_false_iff_not] at h
  exact ⟨fun hswitch => absurd (h.2.symm.trans hswitch) nofun, fun hindex => absurd hindex h.1⟩

end Exchange

namespace Card

/-- The card after it answered a switch with the status block `block`. -/
def learnSwitch (card : Card) (argument : UInt32) (block : Vector UInt8 64) : Card :=
  let status := SwitchStatus.decode block
  let mode := card.config.accessMode
  let state :=
    if argument = switchArgument accessModeGroup mode.code ∧ status.selectedIn accessModeGroup = mode.code then
      .transfer mode
    else card.session.state
  { card with session := { card.session with state }, info := { card.info with switchStatus := some status } }

/-- The card after the exchange `e`. -/
def learn (card : Card) (e : Exchange) : Card :=
  if e.index = 3 then
    { card with session := (e.onSuccess ⟨(e.responseWord 3 >>> 16).toUInt16, .standBy⟩).getD card.session }
  else if e.index = 10 then
    { card with info := { card.info with cid := e.onSuccess (Cid.decode e.responseBits) } }
  else if e.index = 9 then
    { card with info := { card.info with csd := e.onSuccess (Csd.decode e.responseBits) } }
  else if e.index = 7 ∧ e.status = .ok then card.inState (.transfer .sdr12)
  else if e.launch.isSwitch ∧ e.status = .ok then
    match e.switchBlock? card.config with
    | some block => card.learnSwitch e.argument block
    | none => card
  else if e.index = 51 ∧ e.status = .ok then
    match e.scrBlock? card.config with
    | some block => { card with info := { card.info with scr := some (Scr.decode block) } }
    | none => card
  else card

theorem learn_of_launch {card : Card} {e : Exchange} {l : Launch} (he : e.launch = l)
    (h : l.isInformative = false) : card.learn e = card := by
  subst he
  simp [Launch.isInformative, Exchange.launch] at h
  simp [learn, Exchange.launch, h]

theorem learn_config (card : Card) (e : Exchange) : (card.learn e).config = card.config := by
  unfold learn
  repeat' split
  all_goals rfl

theorem learn_rca {card : Card} {e : Exchange} (h : e.index ≠ 3) :
    (card.learn e).session.rca = card.session.rca := by
  unfold learn
  rw [if_neg h]
  repeat' split
  all_goals rfl

/-- Only the commands that move the card along change the session. -/
theorem learn_session {card : Card} {e : Exchange} (h : e.index ∉ [3, 6, 7]) :
    (card.learn e).session = card.session := by
  simp only [List.mem_cons, List.not_mem_nil, or_false, not_or] at h
  obtain ⟨hrca, hswitch, hselect⟩ := h
  have hlaunch : e.launch.isSwitch = false := decide_eq_false fun h => hswitch h.1
  unfold learn
  rw [if_neg hrca]
  repeat' split
  all_goals simp_all

theorem foldl_learn_config (card : Card) (es : List Exchange) : (es.foldl learn card).config = card.config := by
  induction es generalizing card with
  | nil => rfl
  | cons e es ih => exact (ih _).trans (card.learn_config e)

theorem foldl_learn_rca {card : Card} {es : List Exchange} (h : ∀ e ∈ es, e.index ≠ 3) :
    (es.foldl learn card).session.rca = card.session.rca := by
  induction es generalizing card with
  | nil => rfl
  | cons e es ih =>
    obtain ⟨he, hes⟩ := List.forall_mem_cons.1 h
    exact (ih hes).trans (learn_rca he)

theorem foldl_learn_session {card : Card} {es : List Exchange} (h : ∀ e ∈ es, e.index ∉ [3, 6, 7]) :
    (es.foldl learn card).session = card.session := by
  induction es generalizing card with
  | nil => rfl
  | cons e es ih =>
    obtain ⟨he, hes⟩ := List.forall_mem_cons.1 h
    exact (ih hes).trans (learn_session he)

section Stages

variable {σ : Type}

/-- `f` goes through the script for the card's address and returns the card that has learned from it. -/
def Stage (f : Card → Fallible σ Card) (script : Config → UInt32 → List Launch) : Prop :=
  ∀ card, Conducts card.config (f card) (script card.config card.session.addressArgument) fun es card' =>
    card' = es.foldl learn card ∧ ∀ e ∈ es, e.Delivered card.config

theorem Stage.keepsConfig {f : Card → Fallible σ Card} {script : Config → UInt32 → List Launch} (hf : Stage f script) :
    KeepsConfig f := by
  intro card card' xs hrun
  obtain ⟨es, -, hes⟩ := hf card hrun
  cases hes with
  | completed _ _ hpost => rw [hpost.1, foldl_learn_config]

/-- A stage that reads no data. -/
theorem Stage.of_plain {f : Card → Fallible σ Card} {script : Config → UInt32 → List Launch}
    (hplain : ∀ config address, ∀ l ∈ script config address, l.readsBack = false)
    (h : ∀ card, Conducts card.config (f card) (script card.config card.session.addressArgument) fun es card' =>
      card' = es.foldl learn card) : Stage f script := by
  intro card
  refine (h card).imp fun es card' hes hcard => ⟨hcard, fun e he => ?_⟩
  exact Exchange.delivered_of_launch rfl (hplain _ _ e.launch (hes ▸ List.mem_map_of_mem he))

theorem Stage.andThen {f g : Card → Fallible σ Card} {script script' : Config → UInt32 → List Launch}
    (hf : Stage f script) (hg : Stage g script') (h : ∀ config address, ∀ l ∈ script config address, l.index ≠ 3) :
    Stage (fun card => f card >>= g) fun config address => script config address ++ script' config address := by
  intro card
  refine (hf card).bind fun card' es hes hcard => ?_
  obtain ⟨rfl, hdelivered⟩ := hcard
  have hrca : (es.foldl learn card).session.addressArgument = card.session.addressArgument := by
    refine congrArg (fun rca : UInt16 => rca.toUInt32 <<< 16) (foldl_learn_rca fun e he => ?_)
    exact h card.config card.session.addressArgument e.launch (hes ▸ List.mem_map_of_mem he)
  have hcard := hg (es.foldl learn card)
  rw [hrca, foldl_learn_config] at hcard
  refine hcard.imp fun fs card' _ hfs => ⟨by rw [hfs.1, List.foldl_append], fun e he => ?_⟩
  exact (List.mem_append.1 he).elim (hdelivered e) (hfs.2 e)

variable [Device σ]

theorem stage_identify : Stage (σ := σ) identify fun _ _ => [⟨2, 0⟩, ⟨3, 0⟩] := by
  refine .of_plain (by simp [Launch.readsBack, Launch.isSwitch]) fun card => ?_
  refine .lift_bind (.note _) fun _ => .step_bind (Opcode.index_lt .allSendCid) fun e he => ?_
  refine .lift_bind (.notes _) fun _ => .lift_bind (.note _) fun _ =>
    .step_bind (Opcode.index_lt .sendRelativeAddr) fun f hf => .lift_bind (.notes _) fun _ => .of_pure ?_
  have hrca : f.index = 3 := congrArg Launch.index hf
  rw [List.foldl_cons, List.foldl_cons, List.foldl_nil, learn_of_launch he rfl, learn, if_pos hrca]
  rw [Exchange.reply_onSuccess, Exchange.reply_relativeAddress]
  unfold Exchange.onSuccess
  split <;> simp_all

theorem stage_readRegisters : Stage (σ := σ) readRegisters fun _ address => [⟨10, address⟩, ⟨9, address⟩] := by
  refine .of_plain (by simp [Launch.readsBack, Launch.isSwitch]) fun card => ?_
  refine .lift_bind (.note _) fun _ => .step_bind (Opcode.index_lt .sendCid) fun e he => ?_
  refine .lift_bind (.note _) fun _ => .step_bind (Opcode.index_lt .sendCsd) fun f hf =>
    .lift_bind (.notes _) fun _ => .of_pure ?_
  have hcid : e.index = 10 := congrArg Launch.index he
  have hcsd : f.index = 9 := congrArg Launch.index hf
  simp [learn, hcid, hcsd]

theorem stage_select : Stage (σ := σ) select fun _ address => [⟨7, address⟩] := by
  refine .of_plain (by simp [Launch.readsBack, Launch.isSwitch]) fun card => ?_
  refine .lift_bind (.note _) fun _ => .step_bind (Opcode.index_lt .selectCard) fun e he => .of_pure ?_
  have hindex : e.index = 7 := congrArg Launch.index he
  by_cases hok : e.status = .ok <;> simp [learn, hindex, hok, Exchange.reply]

theorem stage_widenBus : Stage (σ := σ) widenBus fun _ address => [⟨55, address⟩, ⟨6, 2⟩] := by
  have hnarrow : testBit 2 31 = false := rfl
  refine .of_plain (by simp [Launch.readsBack, Launch.isSwitch, hnarrow]) fun card => ?_
  refine .lift_bind (.note _) fun _ => ?_
  rw [applicationStep, bind_assoc]
  refine .step_bind (Opcode.index_lt .appCmd) fun e he => .step_bind (Opcode.index_lt .setBusWidth) fun f hf =>
    .of_pure ?_
  rw [List.foldl_cons, List.foldl_cons, List.foldl_nil, learn_of_launch he rfl, learn_of_launch hf rfl]

theorem stage_setClock : Stage (σ := σ) setClock fun _ _ => [] := by
  refine .of_plain (by simp) fun card => ?_
  exact .lift_bind ((Driver.Confined.program _).mono fun _ => Access.isQuiet_of_isClock) fun _ => .of_pure rfl

theorem stage_setBlockLength : Stage (σ := σ) setBlockLength fun _ _ => [⟨16, 512⟩] := by
  refine .of_plain (by simp [Launch.readsBack, Launch.isSwitch]) fun card => ?_
  refine .lift_bind (.note _) fun _ => .step_bind (Opcode.index_lt .setBlocklen) fun e he =>
    .lift_bind (.note _) fun _ => .of_pure ?_
  rw [List.foldl_cons, List.foldl_nil, learn_of_launch he rfl]

theorem stage_readScr : Stage (σ := σ) readScr fun config address =>
    if config.scratchAddress.isSome then [⟨55, address⟩, ⟨51, 0⟩] else [] := by
  intro card
  show Conducts card.config (readScr card) (if card.config.scratchAddress.isSome then _ else _) _
  unfold readScr
  rcases hscratch : card.config.scratchAddress with _ | scratch
  · exact .of_pure ⟨rfl, nofun⟩
  refine .lift_bind (.note _) fun _ => ?_
  rw [applicationStep, bind_assoc]
  refine .step_bind (Opcode.index_lt .appCmd) fun e he => ?_
  have hdelivered {f : Exchange} (hf : f.Delivered card.config) : ∀ g ∈ [e, f], g.Delivered card.config :=
    List.forall_mem_cons.2 ⟨Exchange.delivered_of_launch he rfl, List.forall_mem_singleton.2 hf⟩
  refine .step_readMemory (Opcode.index_lt .sendScr) ?_ ?_
  · intro f block hf hok hblock
    have hindex : f.index = 51 := congrArg Launch.index hf
    have hread : f.scrBlock? card.config = some block := by rw [Exchange.scrBlock?, hscratch, Option.bind_some, hblock]
    refine .lift_bind (.note _) fun _ => .of_pure ⟨?_, hdelivered ⟨fun hswitch => ?_, fun _ _ => ?_⟩⟩
    · rw [List.foldl_cons, List.foldl_cons, List.foldl_nil, learn_of_launch he rfl]
      simp [learn, Exchange.launch, Launch.isSwitch, hindex, hok, hread]
    · simp [Exchange.launch, Launch.isSwitch, hindex] at hswitch
    · rw [hread, Option.isSome_some]
  · intro f hf hfailed
    have hindex : f.index = 51 := congrArg Launch.index hf
    refine ⟨?_, hdelivered ⟨fun _ hok => absurd hok hfailed, fun _ hok => absurd hok hfailed⟩⟩
    rw [List.foldl_cons, List.foldl_cons, List.foldl_nil, learn_of_launch he rfl]
    simp [learn, Exchange.launch, Launch.isSwitch, hindex, hfailed]

theorem isSwitch_switchArgument : ∀ (group : Fin 6) (function : BitVec 4),
    (⟨6, switchArgument group function⟩ : Launch).isSwitch := by
  decide +kernel

theorem switchArgument_ne (mode : AccessMode) (strength : DriverStrength) :
    switchArgument driverStrengthGroup strength.code ≠ switchArgument accessModeGroup mode.code := by
  cases mode <;> cases strength <;> decide

theorem learn_of_isSwitch {card : Card} {e : Exchange} (h : e.launch.isSwitch) :
    card.learn e = if e.status = .ok then
      match e.switchBlock? card.config with
      | some block => card.learnSwitch e.argument block
      | none => card
    else card := by
  have hindex : e.index = 6 := (of_decide_eq_true h).1
  by_cases hok : e.status = .ok <;> simp [learn, h, hindex, hok]

/-- What a switch leaves: the card as it was, or with the status that the switch reported. -/
def Switched (card : Card) (group : Fin 6) (function : BitVec 4) (e : Exchange) (p : Bool × Card) : Prop :=
  e.launch = ⟨6, switchArgument group function⟩ ∧
    ((e.status ≠ .ok ∧ p = (false, card)) ∨
      ∃ block, e.status = .ok ∧ e.switchBlock? card.config = some block ∧
        p = (decide ((SwitchStatus.decode block).selectedIn group = function),
          { card with info := { card.info with switchStatus := some (SwitchStatus.decode block) } }))

section Switched

variable {card : Card} {e : Exchange} {p : Bool × Card}

theorem Switched.delivered {group : Fin 6} {function : BitVec 4} (h : Switched card group function e p) :
    e.Delivered card.config := by
  obtain ⟨he, h⟩ := h
  have hindex : e.index = 6 := congrArg Launch.index he
  refine ⟨fun _ hok => ?_, fun hscr => absurd (hindex.symm.trans hscr) (by decide)⟩
  rcases h with ⟨hfailed, -⟩ | ⟨block, -, hblock, -⟩
  · exact absurd hok hfailed
  · rw [hblock, Option.isSome_some]

theorem learn_accessMode (h : Switched card accessModeGroup card.config.accessMode.code e p) :
    (if p.1 then p.2.inState (.transfer card.config.accessMode) else p.2) = card.learn e := by
  obtain ⟨he, h⟩ := h
  have hargument : e.argument = switchArgument accessModeGroup card.config.accessMode.code :=
    congrArg Launch.argument he
  rw [learn_of_isSwitch (he ▸ isSwitch_switchArgument _ _)]
  rcases h with ⟨hfailed, rfl⟩ | ⟨block, hok, hblock, rfl⟩
  · rw [if_neg hfailed]
    rfl
  · simp only [hok, hblock, learnSwitch, hargument, decide_eq_true_eq, true_and]
    split <;> rfl

/-- The driver strength does not count as an access mode. -/
theorem learn_driverStrength (h : Switched card driverStrengthGroup card.config.driverStrength.code e p) :
    p.2 = card.learn e := by
  obtain ⟨he, h⟩ := h
  have hargument : e.argument = switchArgument driverStrengthGroup card.config.driverStrength.code :=
    congrArg Launch.argument he
  rw [learn_of_isSwitch (he ▸ isSwitch_switchArgument _ _)]
  rcases h with ⟨hfailed, rfl⟩ | ⟨block, hok, hblock, rfl⟩
  · rw [if_neg hfailed]
  · simp only [hok, hblock, learnSwitch, hargument, switchArgument_ne, false_and]
    rfl

end Switched

theorem conducts_switchFunction {card : Card} {scratch : UInt32} (hscratch : card.config.scratchAddress = some scratch)
    (group : Fin 6) (function : BitVec 4) :
    Conducts card.config (switchFunction (σ := σ) card scratch group function) [⟨6, switchArgument group function⟩]
      fun es p => ∃ e, es = [e] ∧ Switched card group function e p := by
  refine .lift_bind (.note _) fun _ => ?_
  refine .step_readMemory (Opcode.index_lt .switchFunc) ?_ ?_
  · intro e block he hok hblock
    have hread : e.switchBlock? card.config = some block := by
      rw [Exchange.switchBlock?, hscratch, Option.bind_some, hblock]
    exact .lift_bind (.notes _) fun _ => .of_pure ⟨e, rfl, he, .inr ⟨block, hok, hread, rfl⟩⟩
  · intro e he hfailed
    exact ⟨e, rfl, he, .inl ⟨hfailed, rfl⟩⟩

theorem config_of_switchFunction {card : Card} {scratch : UInt32} (hscratch : card.config.scratchAddress = some scratch)
    {group : Fin 6} {function : BitVec 4} {p : Bool × Card} {xs : List Access}
    (h : (switchFunction card scratch group function : Fallible σ _).run.Runs (.ok (.ok p)) xs) :
    p.2.config = card.config := by
  obtain ⟨es, -, hes⟩ := conducts_switchFunction hscratch group function h
  cases hes with
  | completed _ _ hpost =>
    obtain ⟨e, -, -, ⟨-, rfl⟩ | ⟨block, -, -, rfl⟩⟩ := hpost
    · rfl
    · rfl

theorem stage_switchFunctions : Stage (σ := σ) switchFunctions fun config _ =>
    if config.scratchAddress.isSome then
      [⟨6, switchArgument accessModeGroup config.accessMode.code⟩,
        ⟨6, switchArgument driverStrengthGroup config.driverStrength.code⟩]
    else [] := by
  intro card
  show Conducts card.config (switchFunctions card) (if card.config.scratchAddress.isSome then _ else _) _
  unfold switchFunctions
  rcases hscratch : card.config.scratchAddress with _ | scratch
  · exact .lift_bind (.note _) fun _ => .of_pure ⟨rfl, nofun⟩
  refine (conducts_switchFunction hscratch _ _).bind fun ⟨taken, card'⟩ es _ hes => ?_
  obtain ⟨e, rfl, he⟩ := hes
  have hcard := learn_accessMode he
  dsimp only at hcard ⊢
  rw [hcard]
  -- The second switch meets a card that has learned from the first, with the same configuration.
  have hconfig := learn_config card e
  have hsecond := conducts_switchFunction (σ := σ) (hconfig ▸ hscratch) driverStrengthGroup
    (card.learn e).config.driverStrength.code
  rw [hconfig] at hsecond ⊢
  rw [← List.append_nil [_]]
  refine hsecond.bind fun ⟨_, card''⟩ fs _ hfs => ?_
  obtain ⟨f, rfl, hf⟩ := hfs
  have he' := he.delivered
  have hf' := hf.delivered
  rw [hconfig] at hf'
  rw [← hconfig] at hf
  exact .of_pure ⟨learn_driverStrength hf, List.forall_mem_cons.2 ⟨he', List.forall_mem_singleton.2 hf'⟩⟩

end Stages

end Card

end SecureDigital

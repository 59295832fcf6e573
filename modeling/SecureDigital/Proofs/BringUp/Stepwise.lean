import SecureDigital.Proofs.BringUp.Course
import SecureDigital.Proofs.Sequential

/-!
# What passes from the commands of a bring-up to its stages

A property of programs is `Card.Stepwise` under a configuration if it passes along sequences and holds of the commands
that the stages are made of. It then holds of every stage, and of the stages one after the other, on any card with this
configuration. The power-up loop and the setting of the clock are no such commands: what holds of them is asked for where
it is needed (`Stepwise.configure`, `Stepwise.bringUp`). A `Sequential` property that holds of all commands is `Stepwise`.
-/

namespace SecureDigital

variable {σ α β : Type} [Device σ]

/-- Whether the command neither counts from the table of application commands nor moves a block. -/
def Opcode.isPlain (op : Opcode) : Bool := !op.isApplication && op ∉ [switchFunc, readSingleBlock, writeSingleBlock]

/-- Runs `x`, and reads what it has brought to `buffer` if it ended well. -/
def Card.fetch (x : Fallible σ Reply) (buffer : UInt32) (length : Nat) (hit : Vector UInt8 length → Fallible σ α)
    (miss : Fallible σ α) : Fallible σ α := do
  let reply ← x
  if reply.status = .ok then
    let block ← .lift (Driver.readMemory buffer length)
    hit block
  else miss

structure Card.Stepwise (config : Config) (P : ∀ {α : Type}, Fallible σ α → Prop) : Prop where
  pure : ∀ {α : Type} (a : α), P (Pure.pure a : Fallible σ α)
  /-- The second program starts where a run of the first one has returned. -/
  bind : ∀ {α β : Type} {x : Fallible σ α} {f : α → Fallible σ β}, P x →
    (∀ a xs, x.run.Runs (.ok (.ok a)) xs → P (f a)) → P (x >>= f)
  notes : ∀ ns : List Notice, P (ExceptT.lift (Driver.notes ns) : Fallible σ Unit)
  plain : ∀ (op : Opcode) (argument : UInt32) (kind : ResponseKind), op.isPlain →
    P (Card.step config (.of op argument kind))
  setBusWidth : ∀ card : Card, card.config = config →
    P (Card.applicationStep card (.of .setBusWidth fourBitBus .short))
  fetchSwitch : ∀ {α : Type} {scratch : UInt32} (argument : UInt32) {hit : Vector UInt8 64 → Fallible σ α}
    {miss : Fallible σ α}, config.scratchAddress = some scratch → (∀ block, P (hit block)) → P miss →
    P (fetch (Card.step config ((Command.of .switchFunc argument .short).withRead scratch switchStatusSize))
      scratch 64 hit miss)
  fetchScr : ∀ {α : Type} {scratch : UInt32} (card : Card) {hit : Vector UInt8 8 → Fallible σ α} {miss : Fallible σ α},
    card.config = config → config.scratchAddress = some scratch → (∀ block, P (hit block)) → P miss →
    P (fetch (Card.applicationStep card ((Command.of .sendScr 0 .short).withRead scratch scrSize)) scratch 8 hit miss)

namespace Card.Stepwise

variable {config : Config} {P : ∀ {α : Type}, Fallible σ α → Prop} {card : Card}

section Stages

variable (h : Stepwise config (@P)) (hcard : card.config = config)

include h

theorem notes_bind {ns : List Notice} {f : Unit → Fallible σ β} (hf : P (f ())) :
    P (ExceptT.lift (Driver.notes ns) >>= f) :=
  h.bind (h.notes ns) fun _ _ _ => hf

theorem step_bind {op : Opcode} {argument : UInt32} {kind : ResponseKind} {f : Reply → Fallible σ β}
    (hop : op.isPlain) (hf : ∀ reply, P (f reply)) : P (Card.step config (.of op argument kind) >>= f) :=
  h.bind (h.plain op argument kind hop) fun reply _ _ => hf reply

include hcard

theorem reset : P (Card.reset card : Fallible σ Card) := by
  subst hcard
  exact h.notes_bind (h.step_bind rfl fun _ => h.notes_bind (h.step_bind rfl fun _ => h.notes_bind (h.pure _)))

theorem identify : P (Card.identify card : Fallible σ Card) := by
  subst hcard
  exact h.notes_bind (h.step_bind rfl fun _ => h.notes_bind (h.notes_bind (h.step_bind rfl fun _ =>
    h.notes_bind (h.pure _))))

theorem readRegisters : P (Card.readRegisters card : Fallible σ Card) := by
  subst hcard
  exact h.notes_bind (h.step_bind rfl fun _ => h.notes_bind (h.step_bind rfl fun _ => h.notes_bind (h.pure _)))

theorem select : P (Card.select card : Fallible σ Card) := by
  subst hcard
  exact h.notes_bind (h.step_bind rfl fun _ => h.pure _)

theorem widenBus : P (Card.widenBus card : Fallible σ Card) :=
  h.notes_bind (h.bind (h.setBusWidth card hcard) fun _ _ _ => h.pure _)

theorem switchFunction {scratch : UInt32} (hscratch : config.scratchAddress = some scratch) (group : Fin 6)
    (function : BitVec 4) : P (Card.switchFunction card scratch group function : Fallible σ _) := by
  subst hcard
  exact h.notes_bind (h.fetchSwitch _ hscratch (fun _ => h.notes_bind (h.pure _)) (h.pure _))

theorem switchFunctions : P (Card.switchFunctions card : Fallible σ Card) := by
  unfold Card.switchFunctions
  rcases hscratch : card.config.scratchAddress with _ | scratch
  · exact h.notes_bind (h.pure _)
  refine h.bind (h.switchFunction hcard (hcard ▸ hscratch) _ _) fun p xs hrun => ?_
  -- The second switch meets a card with the same configuration.
  have hconfig : p.2.config = config := (config_of_switchFunction hscratch hrun).trans hcard
  refine h.bind (h.switchFunction ?_ (hcard ▸ hscratch) _ _) fun _ _ _ => h.pure _
  split
  · exact hconfig
  · exact hconfig

theorem readScr : P (Card.readScr card : Fallible σ Card) := by
  unfold Card.readScr
  rcases hscratch : card.config.scratchAddress with _ | scratch
  · exact h.pure _
  · exact h.notes_bind (h.fetchScr card hcard (hcard ▸ hscratch) (fun _ => h.notes_bind (h.pure _)) (h.pure _))

theorem setBlockLength : P (Card.setBlockLength card : Fallible σ Card) := by
  subst hcard
  exact h.notes_bind (h.step_bind rfl fun _ => h.notes_bind (h.pure _))

theorem negotiate : P (Card.negotiate card : Fallible σ Card) := by
  refine h.bind (h.readRegisters hcard) fun card₁ _ h₁ => ?_
  have hcard₁ := (stage_readRegisters.keepsConfig h₁).trans hcard
  refine h.bind (h.select hcard₁) fun card₂ _ h₂ => ?_
  have hcard₂ := (stage_select.keepsConfig h₂).trans hcard₁
  refine h.bind (h.widenBus hcard₂) fun card₃ _ h₃ => ?_
  exact h.switchFunctions ((stage_widenBus.keepsConfig h₃).trans hcard₂)

theorem close : P (Card.close card : Fallible σ Card) :=
  h.bind (h.readScr hcard) fun _ _ h₁ => h.setBlockLength ((stage_readScr.keepsConfig h₁).trans hcard)

theorem configure (hclock : ∀ khz, P (ExceptT.lift (Clock.program khz) : Fallible σ Ratio)) :
    P (Card.configure card : Fallible σ Card) := by
  rw [configure_eq]
  refine h.bind (h.negotiate hcard) fun card₁ _ h₁ => ?_
  have hcard₁ := (stage_negotiate.keepsConfig h₁).trans hcard
  refine h.bind (h.bind (hclock _) fun _ _ _ => h.pure _) fun card₂ _ h₂ => ?_
  exact h.close ((stage_setClock.keepsConfig h₂).trans hcard₁)

end Stages

theorem bringUp (h : Stepwise config (@P)) (hprepare : P (ExceptT.lift (Card.prepare config) : Fallible σ Unit))
    (hpowerUp : ∀ card : Card, card.config = config → P (Card.powerUp card : Fallible σ Card))
    (hclock : ∀ khz, P (ExceptT.lift (Clock.program khz) : Fallible σ Ratio)) :
    P (Card.bringUp config : Fallible σ Card) := by
  rw [bringUp_eq]
  refine h.bind hprepare fun _ _ _ => h.bind (h.reset rfl) fun card₁ _ h₁ => ?_
  have hcard₁ : card₁.config = config := keepsConfig_reset h₁
  refine h.bind (hpowerUp card₁ hcard₁) fun card₂ _ h₂ => ?_
  have hcard₂ := (keepsConfig_powerUp h₂).trans hcard₁
  refine h.bind (h.identify hcard₂) fun card₃ _ h₃ => ?_
  exact h.configure ((stage_identify.keepsConfig h₃).trans hcard₂) hclock

end Card.Stepwise

namespace Driver.Sequential

variable {P : ∀ {α : Type}, Driver σ α → Prop} (h : Sequential (@P)) {config : Config}

section PowerUp

variable (happCmd : P ((Command.of .appCmd 0 .short).execute config : Driver σ Reply))
  (hsendOpCond : P ((Command.of .sendOpCond Card.operatingCondition .short).execute config : Driver σ Reply))
  (hdelay : ∀ sysClkHz ms, P (Timer.delay sysClkHz ms : Driver σ Unit))

include h happCmd hsendOpCond hdelay

theorem powerUpRound : P (Card.powerUpRound config : Driver σ (Option UInt32)) := by
  refine h.bind happCmd fun _ => h.bind hsendOpCond fun reply => ?_
  split
  · exact h.pure _
  · exact h.bind (hdelay _ _) fun _ => h.pure _

theorem powerUp {card : Card} (hcard : card.config = config) : P (Card.powerUp card : Fallible σ Card).run := by
  subst hcard
  refine h.bindLift (h.note _) fun _ =>
    h.bindLift (h.poll (h.powerUpRound happCmd hsendOpCond hdelay)) fun ocr => ?_
  cases ocr with
  | none => exact h.bindLift (h.note _) fun _ => h.pure _
  | some ocr => exact h.bindLift (h.note _) fun _ => h.pure _

end PowerUp

variable (hexecute : ∀ c : Command, P (c.execute config : Driver σ Reply))

include h hexecute

theorem step (c : Command) : P (Card.step config c : Fallible σ Reply).run := by
  refine h.bindLift (hexecute c) fun reply => ?_
  split
  · exact h.pure _
  · split
    · exact h.bindLift (h.note _) fun _ => h.pure _
    · exact h.bindLift (h.note _) fun _ => h.pure _

theorem applicationStep {card : Card} (hcard : card.config = config) (c : Command) :
    P (Card.applicationStep card c : Fallible σ Reply).run := by
  subst hcard
  exact h.bindFallible (h.step hexecute _) fun _ _ _ => h.step hexecute c

theorem stepwise (hread : ∀ address length, P (Driver.readMemory address length : Driver σ _)) :
    Card.Stepwise (σ := σ) config fun x => P x.run := by
  have hfetch {α : Type} {x : Fallible σ Reply} {buffer : UInt32} {length : Nat}
      {hit : Vector UInt8 length → Fallible σ α} {miss : Fallible σ α} (hx : P x.run) (hhit : ∀ block, P (hit block).run)
      (hmiss : P miss.run) : P (Card.fetch x buffer length hit miss).run := by
    refine h.bindFallible hx fun reply _ _ => ?_
    split
    · exact h.bindLift (hread _ _) hhit
    · exact hmiss
  exact {
    pure := fun a => h.pure (Except.ok a)
    bind := h.bindFallible
    notes := fun ns => h.lift (h.notes ns)
    plain := fun _ _ _ _ => h.step hexecute _
    setBusWidth := fun _ hcard => h.applicationStep hexecute hcard _
    fetchSwitch := fun _ _ _ _ => hfetch (h.step hexecute _)
    fetchScr := fun _ _ _ hcard _ => hfetch (h.applicationStep hexecute hcard _) }

theorem bringUp (hread : ∀ address length, P (Driver.readMemory address length : Driver σ _))
    (hdelay : ∀ sysClkHz ms, P (Timer.delay sysClkHz ms : Driver σ Unit))
    (hprogram : ∀ khz, P (Clock.program khz : Driver σ Ratio)) (hprepare : P (Card.prepare config : Driver σ Unit)) :
    P (Card.bringUp config : Fallible σ Card).run :=
  (h.stepwise hexecute hread).bringUp (h.lift hprepare) (fun _ hcard => h.powerUp (hexecute _) (hexecute _) hdelay hcard) fun khz =>
    h.lift (hprogram khz)

end Driver.Sequential

namespace Access
variable {a : Access}

/-- Whether the access is not of the kind. -/
def spares (kind : Access → Bool) (a : Access) : Bool := !kind a

theorem not_kind_of_spares {kind : Access → Bool} (h : a.spares kind) : kind a = false := by
  rwa [spares, Bool.not_eq_true'] at h

/-- A command takes neither the clock generator nor the timer. -/
theorem spares_of_servesCommand (h : a.servesCommand) : a.spares isClock ∧ a.spares isTimer := by
  unfold servesCommand at h
  split at h
  case h_8 =>
    unfold isReport at h
    split at h <;> first | exact ⟨rfl, rfl⟩ | cases h
  all_goals exact ⟨rfl, rfl⟩

theorem spares_of_isMemoryRead (h : a.isMemoryRead) : a.spares isClock ∧ a.spares isTimer := by
  cases a <;> first | exact ⟨rfl, rfl⟩ | cases h

theorem spares_isClock_of_isTimer (h : a.isTimer) : a.spares isClock := by
  unfold isTimer at h
  split at h <;> first | rfl | cases h

theorem spares_isTimer_of_isClock (h : a.isClock) : a.spares isTimer := by
  cases htimer : a.isTimer with
  | false => rw [spares, htimer, Bool.not_false]
  | true => exact absurd h (by rw [not_kind_of_spares (spares_isClock_of_isTimer htimer)]; exact nofun)

end Access

namespace Driver.Confined

variable {p : Access → Bool} (hserves : ∀ a : Access, a.servesCommand → p a) (config : Config)

include hserves

theorem execute (c : Command) : (c.execute config : Driver σ Reply).Confined p :=
  fun _ _ h a ha => hserves a (h.execute.servesCommand a ha)

/-- What a bring-up accesses but to set the clock and to wait. -/
theorem stepwise (hmemory : ∀ a : Access, a.isMemoryRead → p a) :
    Card.Stepwise (σ := σ) config fun x => x.run.Confined p :=
  (sequential p).stepwise (execute hserves config) fun _ _ => (readMemory _ _).mono hmemory

end Driver.Confined

end SecureDigital

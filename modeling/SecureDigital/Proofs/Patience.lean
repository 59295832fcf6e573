import SecureDigital.Card.Transfer
import SecureDigital.Proofs.BringUp.Script
import SecureDigital.Proofs.Follows

/-!
# More patience changes nothing

A configuration with higher poll limits makes the same runs as one under which no poll is given up: the same accesses
and the same result, for a command (`Follows.execute`), for the transfer of a block and for the whole bring-up, stage by
stage (`Patient`). Of a card that is brought up only the configuration differs.
-/

namespace SecureDigital

variable {σ : Type}

structure Limits where
  cmdPoll : PollLimit
  dataPoll : PollLimit
  dmaPoll : PollLimit
  ocrAttempts : PollLimit
deriving DecidableEq

structure Limits.Le (l l' : Limits) : Prop where
  cmdPoll : l.cmdPoll ≤ l'.cmdPoll
  dataPoll : l.dataPoll ≤ l'.dataPoll
  dmaPoll : l.dmaPoll ≤ l'.dmaPoll
  ocrAttempts : l.ocrAttempts ≤ l'.ocrAttempts

instance : LE Limits := ⟨Limits.Le⟩

def Config.limits (c : Config) : Limits := ⟨c.cmdPoll, c.dataPoll, c.dmaPoll, c.ocrAttempts⟩

def Config.withLimits (l : Limits) (c : Config) : Config :=
  { c with cmdPoll := l.cmdPoll, dataPoll := l.dataPoll, dmaPoll := l.dmaPoll, ocrAttempts := l.ocrAttempts }

def Card.withLimits (l : Limits) (c : Card) : Card := { c with config := c.config.withLimits l }

variable [Device σ] {l : Limits}

/-! ### Commands -/

namespace Driver.Follows
variable {config : Config}

theorem await (h : config.limits ≤ l) (phase : Phase) :
    Follows id (phase.await config : Driver σ Status) (phase.await (config.withLimits l)) := by
  have hle : phase.limit config ≤ phase.limit (config.withLimits l) := by
    cases phase
    · exact h.cmdPoll
    · exact h.dataPoll
  refine poll_bind hle (.of_read _) (refl _) (fun s b hquiet => ?_) fun _ => refl _
  exact hquiet.of_bind.1 (.pollExhausted _) List.mem_cons_self rfl

theorem finish (h : config.limits ≤ l) (c : Command) :
    Follows id (c.finish config : Driver σ Status) (c.finish (config.withLimits l)) := by
  unfold Command.finish
  split
  · exact bind (await h .data) fun _ _ _ => refl _
  · exact refl _

theorem execute (h : config.limits ≤ l) (c : Command) :
    Follows id (c.execute config : Driver σ Reply) (c.execute (config.withLimits l)) := by
  refine bind (refl _) fun _ _ _ => bind (refl _) fun _ _ _ => bind (refl _) fun _ _ _ => bind (refl _) fun _ _ _ =>
    bind (await h .command) fun status _ _ => bind (refl _) fun response _ _ => ?_
  dsimp only [id]
  split
  · exact bind (finish h c) fun _ _ _ => refl _
  · exact refl _

theorem powerUpRound (h : config.limits ≤ l) :
    Follows id (Card.powerUpRound config : Driver σ (Option UInt32)) (Card.powerUpRound (config.withLimits l)) :=
  bind (execute h _) fun _ _ _ => bind (execute h _) fun _ _ _ => refl _

/-! Transfers -/

theorem readBlock {card : Card} (h : card.config.limits ≤ l) (block dest : UInt32) :
    Follows id (card.readBlock block dest : Driver σ Status) ((card.withLimits l).readBlock block dest) :=
  bind (refl _) fun _ _ _ => bind (execute h _) fun _ _ _ => refl _

theorem writeBlock {card : Card} (h : card.config.limits ≤ l) (block src : UInt32) :
    Follows id (card.writeBlock block src : Driver σ Status) ((card.withLimits l).writeBlock block src) := by
  refine bind (refl _) fun _ _ _ => bind (execute h _) fun reply _ _ => ?_
  dsimp only [id]
  split
  · refine poll_bind h.dmaPoll (.of_read _) (refl _) (fun s b hquiet => ?_) fun _ => refl _
    exact hquiet.of_bind.1 (.readerStuck block) List.mem_cons_self rfl
  · exact refl _

/-! Steps of the bring-up -/

theorem step (h : config.limits ≤ l) (c : Command) : Follows (Except.map id)
    (Card.step config c : Fallible σ Reply).run (Card.step (config.withLimits l) c).run :=
  bindLift (execute h c) fun _ => refl_fallible _

theorem applicationStep {card : Card} (h : card.config.limits ≤ l) (c : Command) : Follows (Except.map id)
    (card.applicationStep c : Fallible σ Reply).run ((card.withLimits l).applicationStep c).run :=
  bindFallible (step h _) fun _ _ _ => step h c

end Driver.Follows

/-! ### The bring-up -/

/-- With the limits `l` a stage makes the same runs, and leaves the same card but for the limits. -/
def Patient (l : Limits) (f : Card → Fallible σ Card) : Prop :=
  ∀ card : Card, card.config.limits ≤ l →
    Driver.Follows (Except.map (Card.withLimits l)) (f card).run (f (card.withLimits l)).run

namespace Patient

open Driver.Follows

omit [Device σ] in
theorem andThen {f g : Card → Fallible σ Card} (hf : Patient l f) (hkeeps : Card.KeepsConfig f) (hg : Patient l g) :
    Patient l fun card => f card >>= g := by
  intro card h
  refine bindFallible (hf card h) fun card' xs hrun => hg card' ?_
  rw [hkeeps hrun]
  exact h

theorem reset : Patient (σ := σ) l Card.reset := fun _ h =>
  bindLift (refl _) fun _ => bindFallible (step h _) fun _ _ _ => bindLift (refl _) fun _ =>
    bindFallible (step h _) fun _ _ _ => bindLift (refl _) fun _ => pure_fallible rfl

theorem powerUp : Patient (σ := σ) l Card.powerUp := by
  intro card h
  refine bindLift (refl _) fun _ => ?_
  rw [ExceptT.run_bind_lift, ExceptT.run_bind_lift]
  refine poll_bind h.ocrAttempts (.powerUpRound _) (powerUpRound h) (fun s b hquiet => ?_) fun ocr => ?_
  · simp only [ExceptT.run_bind_lift] at hquiet
    exact hquiet.of_bind.1 .notPoweredUp List.mem_cons_self rfl
  · exact bindLift (refl _) fun _ => pure_fallible rfl

theorem identify : Patient (σ := σ) l Card.identify := by
  intro card h
  refine bindLift (refl _) fun _ => bindFallible (step h _) fun _ _ _ => bindLift (refl _) fun _ =>
    bindLift (refl _) fun _ => bindFallible (step h _) fun reply _ _ => bindLift (refl _) fun _ => pure_fallible ?_
  dsimp only [id]
  split <;> rfl

theorem readRegisters : Patient (σ := σ) l Card.readRegisters := fun _ h =>
  bindLift (refl _) fun _ => bindFallible (step h _) fun _ _ _ => bindLift (refl _) fun _ =>
    bindFallible (step h _) fun _ _ _ => bindLift (refl _) fun _ => pure_fallible rfl

theorem select : Patient (σ := σ) l Card.select := by
  intro card h
  refine bindLift (refl _) fun _ => bindFallible (step h _) fun reply _ _ => pure_fallible ?_
  dsimp only [id]
  split <;> rfl

theorem widenBus : Patient (σ := σ) l Card.widenBus := fun _ h =>
  bindLift (refl _) fun _ => bindFallible (applicationStep h _) fun _ _ _ => pure_fallible rfl

theorem switchFunction {card : Card} (h : card.config.limits ≤ l) (scratch : UInt32) (group : Fin 6)
    (function : BitVec 4) : Driver.Follows (Except.map (Prod.map id (Card.withLimits l)))
      (card.switchFunction scratch group function : Fallible σ _).run
      ((card.withLimits l).switchFunction scratch group function).run := by
  refine bindLift (refl _) fun _ => bindFallible (step h _) fun reply _ _ => ?_
  dsimp only [id]
  split
  · exact bindLift (refl _) fun _ => bindLift (refl _) fun _ => pure_fallible rfl
  · exact pure_fallible rfl

theorem switchFunctions : Patient (σ := σ) l Card.switchFunctions := by
  intro card h
  have hscratch : (card.withLimits l).config.scratchAddress = card.config.scratchAddress := rfl
  unfold Card.switchFunctions
  rw [hscratch]
  split
  · exact bindLift (refl _) fun _ => pure_fallible rfl
  · next scratch hsome =>
    refine bindFallible (switchFunction h _ _ _) fun ⟨taken, card'⟩ xs hrun => ?_
    have hconfig : card'.config = card.config := Card.config_of_switchFunction hsome hrun
    have h' : card'.config.limits ≤ l := hconfig ▸ h
    cases taken <;> simp only [Prod.map, id, Bool.false_eq_true, if_true, if_false]
    · exact bindFallible (switchFunction h' _ _ _) fun _ _ _ => pure_fallible rfl
    · have h'' : (card'.inState (.transfer card.config.accessMode)).config.limits ≤ l := h'
      exact bindFallible (switchFunction h'' _ _ _) fun _ _ _ => pure_fallible rfl

theorem setClock : Patient (σ := σ) l Card.setClock := fun _ _ => bindLift (refl _) fun _ => pure_fallible rfl

theorem readScr : Patient (σ := σ) l Card.readScr := by
  intro card h
  have hscratch : (card.withLimits l).config.scratchAddress = card.config.scratchAddress := rfl
  unfold Card.readScr
  rw [hscratch]
  split
  · exact pure_fallible rfl
  · refine bindLift (refl _) fun _ => bindFallible (applicationStep h _) fun reply _ _ => ?_
    dsimp only [id]
    split
    · exact bindLift (refl _) fun _ => bindLift (refl _) fun _ => pure_fallible rfl
    · exact pure_fallible rfl

theorem setBlockLength : Patient (σ := σ) l Card.setBlockLength := fun _ h =>
  bindLift (refl _) fun _ => bindFallible (step h _) fun _ _ _ => bindLift (refl _) fun _ => pure_fallible rfl

theorem configure : Patient (σ := σ) l Card.configure :=
  have hclose := readScr.andThen Card.stage_readScr.keepsConfig setBlockLength
  have hclock := setClock.andThen Card.stage_setClock.keepsConfig hclose
  have hswitch := switchFunctions.andThen Card.stage_switchFunctions.keepsConfig hclock
  have hwiden := widenBus.andThen Card.stage_widenBus.keepsConfig hswitch
  have hselect := select.andThen Card.stage_select.keepsConfig hwiden
  readRegisters.andThen Card.stage_readRegisters.keepsConfig hselect

/-- The bring-up after the clock of the identification has been set. -/
theorem bringUp {config : Config} (h : config.limits ≤ l) : Driver.Follows (Except.map (Card.withLimits l))
    (Card.bringUp config : Fallible σ Card).run (Card.bringUp (config.withLimits l)).run := by
  rw [Card.bringUp_eq, Card.bringUp_eq]
  have hidentify := identify.andThen Card.stage_identify.keepsConfig (configure (σ := σ) (l := l))
  have hpowerUp := powerUp.andThen Card.keepsConfig_powerUp hidentify
  have hreset := reset.andThen Card.keepsConfig_reset hpowerUp
  exact bindLift (refl _) fun _ => hreset (.fresh config) h

end Patient

theorem run_withLimits {config : Config} (h : config.limits ≤ l) (s : σ) (b : Nat) :
    (∀ c : Command, ((c.execute config).run s b).Unexhausted →
      (c.execute (config.withLimits l)).run s b = (c.execute config).run s b) ∧
    (∀ (card : Card) (block dest : UInt32), card.config = config → ((card.readBlock block dest).run s b).Unexhausted →
      ((card.withLimits l).readBlock block dest).run s b = (card.readBlock block dest).run s b) ∧
    (∀ (card : Card) (block src : UInt32), card.config = config → ((card.writeBlock block src).run s b).Unexhausted →
      ((card.withLimits l).writeBlock block src).run s b = (card.writeBlock block src).run s b) ∧
    (((Card.bringUp config).run.run s b).Unexhausted →
      (Card.bringUp (config.withLimits l)).run.run s b =
        ((Card.bringUp config).run.run s b).map (Except.map (Card.withLimits l))) := by
  refine ⟨fun c hc => ?_, fun card block dest hcard hread => ?_, fun card block src hcard hwrite => ?_, fun hup => ?_⟩
  · have hrun := Driver.Follows.execute h c s b hc
    rwa [Outcome.map_id] at hrun
  · have hrun := Driver.Follows.readBlock (hcard ▸ h) block dest s b hread
    rwa [Outcome.map_id] at hrun
  · have hrun := Driver.Follows.writeBlock (hcard ▸ h) block src s b hwrite
    rwa [Outcome.map_id] at hrun
  · exact Patient.bringUp h s b hup

/-- One poll of everything is enough for a card that answers at once. -/
theorem run_withLimits_willing :
    let once : Config :=
      { cmdPoll := .attempts 1, dataPoll := .attempts 1, dmaPoll := .attempts 1, ocrAttempts := .attempts 1,
        scratchAddress := some 0x100 }
    let unlimited : Limits := ⟨.unbounded, .unbounded, .unbounded, .unbounded⟩
    let o := (Card.bringUp once).run.run Scripted.willing 3000
    once.limits ≤ unlimited ∧ (∃ card, o.result = .ok (.ok card)) ∧
      (Card.bringUp (once.withLimits unlimited)).run.run Scripted.willing 3000 =
        o.map (Except.map (Card.withLimits unlimited)) ∧
      (((Card.fresh once).withLimits unlimited).writeBlock 7 0x100).run Scripted.willing 3000 =
        ((Card.fresh once).writeBlock 7 0x100).run Scripted.willing 3000 := by
  intro once unlimited o
  have hle : once.limits ≤ unlimited := ⟨.unbounded _, .unbounded _, .unbounded _, .unbounded _⟩
  obtain ⟨-, -, hwrite, hup⟩ := run_withLimits hle Scripted.willing 3000
  have hreturns : Driver.returns (Card.bringUp once) Scripted.willing 3000 fun _ => true := by decide +kernel
  obtain ⟨card, -, hresult⟩ := Driver.exists_of_returns hreturns
  exact ⟨hle, ⟨card, hresult⟩, hup (by decide +kernel), hwrite (.fresh once) 7 0x100 rfl (by decide +kernel)⟩

end SecureDigital

import SecureDigital.Proofs.BringUp.Stepwise
import SecureDigital.Proofs.Simulated.Answers

/-!
# A bring-up under scripted faults

Whatever events and whatever response are scripted, a bring-up that skips failed steps comes to its end on the
simulator, as long as each wait does: where the driver waits without bound, the scripted events have to end the phase.
It fails only if the power-up loop gives up before the card is ready (`bringUp_outlasts_faults`). What passes through a
bring-up is `Faulty`: the rest of the script still ends every wait, and only the power-up loop uses up busy replies. The
scripted response takes the place of the first answer, and so never of one that the power-up loop reads.
-/

namespace SecureDigital

namespace Simulated

/-- The script ends every wait that has no bound, and `busy` power-up replies are left that report a busy card. -/
structure Faulty (config : Config) (busy : Nat) (s : Simulated) : Prop where
  ends : s.EndsPhases config
  busy : s.ocrBusyReplies = busy

/-- The card answers the command, and not as a request to power up. -/
def Hears (s : Simulated) (c : Command) : Prop :=
  ∃ response w, s.respond c = some (response, w) ∧ w.ocrBusyReplies = s.ocrBusyReplies

variable {s s' w : Simulated} {config : Config} {c : Command} {card : Card} {busy : Nat}

/-! ### The card answers -/

theorem Hears.of_answer {t : Simulated} (harmed : s.armed c = some t) (hkept : t.ocrBusyReplies = s.ocrBusyReplies)
    (hanswer : let issued : Issued := ⟨c.index, c.argument, t.application⟩
      ∃ response w, answer { t with issued := t.issued ++ [issued] } issued = some (response, w) ∧
        w.ocrBusyReplies = t.ocrBusyReplies) : s.Hears c := by
  obtain ⟨response, w, hw, hbusy⟩ := hanswer
  refine ⟨response, { w with application := c.index == Opcode.appCmd.index }, ?_, hbusy.trans hkept⟩
  exact Option.bind_eq_some_iff.2 ⟨t, harmed, Option.map_eq_some_iff.2 ⟨_, hw, rfl⟩⟩

theorem answer_plain {op : Opcode} (hop : op.isPlain) (s : Simulated) (argument : UInt32) (application : Bool) :
    ∃ response w, s.answer ⟨op.index, argument, application⟩ = some (response, w) ∧
      w.ocrBusyReplies = s.ocrBusyReplies := by
  cases op <;> cases application <;> first | exact ⟨_, _, rfl, rfl⟩ | cases hop

theorem hears_plain {op : Opcode} (hop : op.isPlain) (argument : UInt32) (kind : ResponseKind) (s : Simulated) :
    s.Hears (.of op argument kind) :=
  .of_answer rfl rfl (answer_plain hop _ argument s.application)

theorem hears_setBusWidth (h : s.application = true) : s.Hears (.of .setBusWidth Card.fourBitBus .short) := by
  refine .of_answer rfl rfl ?_
  rw [h]
  exact ⟨_, _, rfl, rfl⟩

variable {scratch : UInt32}

/-- After APP_CMD the card takes SWITCH_FUNC for the command that sets the bus width, and sends nothing. -/
theorem hears_switchFunc (argument : UInt32) (hroom : scratch.toNat + 64 ≤ memorySize) (s : Simulated) :
    s.Hears ((Command.of .switchFunc argument .short).withRead scratch Card.switchStatusSize) := by
  cases h : s.application with
  | false => exact ⟨_, _, respond_switchFunc argument h hroom, ocrBusyReplies_sent _ _ _ _ _⟩
  | true =>
    let t : Simulated := { s with blockSize := Card.switchStatusSize, writerAddress := scratch }
    have harmed : s.armed ((Command.of .switchFunc argument .short).withRead scratch Card.switchStatusSize) = some t :=
      rfl
    have hkept : t.ocrBusyReplies = s.ocrBusyReplies := rfl
    have happlication : t.application = true := h
    refine .of_answer harmed hkept ?_
    rw [happlication]
    exact ⟨_, _, rfl, rfl⟩

theorem hears_sendScr (h : s.application = true) (hroom : scratch.toNat + 64 ≤ memorySize) :
    s.Hears ((Command.of .sendScr 0 .short).withRead scratch Card.scrSize) :=
  ⟨_, _, respond_sendScr 0 h (by omega), ocrBusyReplies_sent _ _ _ _ _⟩

/-- The card reports power-up once it has no busy replies left. -/
theorem respond_sendOpCond (argument : UInt32) (h : s.application = true) :
    ∃ w, s.respond (.of .sendOpCond argument .short) =
        some (oneWord (if s.ocrBusyReplies = 0 then s.readyWord else busyWord), w) ∧
      w.ocrBusyReplies = s.ocrBusyReplies - 1 := by
  have hanswer := answer_sendOpCond { s with issued := s.issued ++ [⟨41, argument, true⟩] } argument
  rw [← h] at hanswer
  exact ⟨_, Option.map_eq_some_iff.2 ⟨_, hanswer, rfl⟩, rfl⟩

/-! ### A command under faults -/

namespace Faulty

theorem of_atRest (h : Faulty config busy s.atRest) : Faulty config busy s := ⟨⟨h.ends.command, h.ends.data⟩, h.busy⟩

theorem congr (h : Faulty config busy s) (hs' : s'.atRest = s.atRest) : Faulty config busy s' := by
  refine .of_atRest ?_
  rw [hs']
  exact ⟨⟨h.ends.command, h.ends.data⟩, h.busy⟩

/-- A launch takes the next events off the script, and the rest of it still ends every wait. -/
theorem consumed {busy' : Nat} (h : Faulty config busy s) (hscript : w.script = s.script)
    (hbusy : w.ocrBusyReplies = busy') (hasData : Bool) : Faulty config busy' (w.consumed hasData) := by
  obtain ⟨hcmdEvents, hdataEvents, -⟩ : w.cmdEvents = s.cmdEvents ∧ w.dataEvents = s.dataEvents ∧
    w.nextResponse = s.nextResponse := by simpa [script] using hscript
  refine ⟨⟨fun hlimit event hevent => ?_, fun hlimit event hevent => ?_⟩, hbusy⟩
  · refine h.ends.command hlimit event (List.mem_of_mem_tail ?_)
    rw [← hcmdEvents]
    exact hevent
  · have hmem : event ∈ w.dataEvents := by
      cases hasData with
      | false => exact hevent
      | true => exact List.mem_of_mem_tail hevent
    exact h.ends.data hlimit event (hdataEvents ▸ hmem)

/-- A command comes to its end, with the response that the script or else the card has for it. -/
theorem execute {response : Response} {busy' : Nat} (h : Faulty config busy s) (hindex : c.index < 64)
    (hrespond : s.atRest.respond c = some (response, w)) (hbusy : w.ocrBusyReplies = busy') :
    (c.execute config : Driver Simulated Reply).Achieves s fun reply s' =>
      reply.response = c.response.keep (s.nextResponse.getD response) ∧ Faulty config busy' s' ∧
        s'.nextResponse = none ∧ s'.application = (c.index == Opcode.appCmd.index) := by
  obtain ⟨hscript, happlication⟩ := script_of_respond hrespond
  refine (achieves_execute_scripted h.ends hindex hrespond).imp fun reply s' ⟨hresponse, hs', _⟩ => ⟨hresponse, ?_, ?_, ?_⟩
  · refine .of_atRest ?_
    rw [hs']
    exact h.consumed hscript hbusy _
  · exact congrArg Simulated.nextResponse hs'
  · exact (congrArg Simulated.application hs').trans happlication

theorem step (hpolicy : config.stepPolicy = .proceed) (h : Faulty config busy s) (hindex : c.index < 64)
    (hears : s.atRest.Hears c) : Fallible.Succeeds (Card.step config c) s fun _ s' =>
      Faulty config busy s' ∧ s'.application = (c.index == Opcode.appCmd.index) := by
  obtain ⟨response, w, hrespond, hkept⟩ := hears
  have hbusy : w.ocrBusyReplies = busy := hkept.trans h.busy
  refine .lift_bind (h.execute hindex hrespond hbusy) fun reply s' ⟨_, h', _, happlication⟩ => ?_
  split
  · exact .pure ⟨h', happlication⟩
  · rw [hpolicy]
    exact .notes_bind (.pure ⟨h', happlication⟩)

theorem applicationStep (hpolicy : config.stepPolicy = .proceed) (hcard : card.config = config)
    (h : Faulty config busy s) (hindex : c.index < 64) (hears : ∀ t : Simulated, t.application = true → t.Hears c) :
    Fallible.Succeeds (Card.applicationStep card c) s fun _ s' => Faulty config busy s' := by
  subst hcard
  refine (h.step hpolicy (Opcode.index_lt .appCmd) (hears_plain rfl _ _ _)).bind fun _ s₁ ⟨h₁, happlication⟩ => ?_
  exact (h₁.step hpolicy hindex (hears s₁.atRest happlication)).imp fun _ _ h' => h'.1

theorem fetch {α : Type} {x : Fallible Simulated Reply} {buffer : UInt32} {length : Nat}
    {hit : Vector UInt8 length → Fallible Simulated α} {miss : Fallible Simulated α} {Q : α → Simulated → Prop}
    (hroom : buffer.toNat + length ≤ memorySize) (hx : x.Succeeds s fun _ s' => Faulty config busy s')
    (hhit : ∀ block s', Faulty config busy s' → (hit block).Succeeds s' Q)
    (hmiss : ∀ s', Faulty config busy s' → miss.Succeeds s' Q) :
    (Card.fetch x buffer length hit miss).Succeeds s Q := by
  refine hx.bind fun reply s₁ h₁ => ?_
  split
  · refine .lift_bind (achieves_readMemory hroom) ?_
    rintro block _ ⟨-, rfl⟩
    exact hhit block _ h₁
  · exact hmiss s₁ h₁

end Faulty

/-- Every stage but the power-up goes on under faults. -/
theorem stepwise_faulty (hpolicy : config.stepPolicy = .proceed)
    (hroom : ∀ scratch, config.scratchAddress = some scratch → scratch.toNat + 64 ≤ memorySize) (busy : Nat) :
    Card.Stepwise (σ := Simulated) config fun x =>
      ∀ s, Faulty config busy s → x.Succeeds s fun _ s' => Faulty config busy s' where
  pure _ _ h := .pure h
  bind hx hf s h := (hx s h).runs.bind fun a s' ⟨h', xs, hruns⟩ => hf a xs hruns s' h'
  notes _ _ h := .lift (.notes h)
  plain op argument kind hop s h :=
    (h.step hpolicy (Opcode.index_lt op) (hears_plain hop argument kind _)).imp fun _ _ h' => h'.1
  setBusWidth card hcard s h :=
    h.applicationStep hpolicy hcard (Opcode.index_lt .setBusWidth) fun _ => hears_setBusWidth
  fetchSwitch argument _ _ hscratch hhit hmiss s h := by
    have hstep := h.step hpolicy (Opcode.index_lt .switchFunc) (hears_switchFunc argument (hroom _ hscratch) _)
    exact Faulty.fetch (hroom _ hscratch) (hstep.imp fun _ _ h' => h'.1) hhit hmiss
  fetchScr card _ _ hcard hscratch hhit hmiss s h := by
    have hroom' := hroom _ hscratch
    have hstep := h.applicationStep hpolicy hcard (Opcode.index_lt .sendScr) fun _ happlication =>
      hears_sendScr happlication hroom'
    exact Faulty.fetch (by omega) hstep hhit hmiss

/-! ### The power-up loop under faults -/

namespace Faulty

/-- A round of the loop reads what the card answers, whatever became of the commands. -/
theorem powerUpRound (h : Faulty config busy s) :
    (Card.powerUpRound config).Achieves s fun r s' => (r.isSome ↔ busy = 0) ∧ Faulty config (busy - 1) s' := by
  obtain ⟨response, w, hrespond, hkept⟩ : s.atRest.Hears (.of .appCmd 0 .short) := hears_plain rfl _ _ _
  have hbusy : w.ocrBusyReplies = busy := hkept.trans h.busy
  refine (h.execute (Opcode.index_lt .appCmd) hrespond hbusy).bind fun _ s₁ ⟨_, h₁, hprompt₁, happlication₁⟩ => ?_
  -- A scripted response has gone to APP_CMD by now.
  obtain ⟨w, hrespond₁, hkept₁⟩ := respond_sendOpCond (s := s₁.atRest) Card.operatingCondition happlication₁
  have hbusy₁ : s₁.atRest.ocrBusyReplies = busy := h₁.busy
  rw [hbusy₁] at hrespond₁ hkept₁
  refine (h₁.execute (Opcode.index_lt .sendOpCond) hrespond₁ hkept₁).bind fun reply s₂ ⟨hreply, h₂, _⟩ => ?_
  have hshort : reply.short = if busy = 0 then s₁.atRest.readyWord else busyWord := by
    rw [Reply.short, hreply, hprompt₁]
    rfl
  rw [hshort]
  by_cases hready : busy = 0
  · rw [if_pos hready, if_pos s₁.atRest.testBit_readyWord.1]
    exact .pure ⟨iff_of_true rfl hready, h₂⟩
  · rw [if_neg hready, if_neg (by rw [testBit_busyWord]; exact Bool.false_ne_true)]
    exact (achieves_delay _ _ s₂).bind fun _ s₃ h₃ => .pure ⟨iff_of_false Bool.false_ne_true hready, h₂.congr h₃⟩

theorem idle_round (i : Nat) (s : Simulated) (h : Faulty config (i + 1) s) :
    (Card.powerUpRound config).Achieves s fun r s' => r = none ∧ Faulty config i s' :=
  h.powerUpRound.imp fun r s' ⟨hr, h'⟩ => ⟨by simpa using hr, h'⟩

theorem last_round (s : Simulated) (h : Faulty config 0 s) :
    (Card.powerUpRound config).Achieves s fun r s' => ∃ ocr, r = some ocr ∧ Faulty config 0 s' :=
  h.powerUpRound.imp fun r s' ⟨hr, h'⟩ => by
    obtain ⟨ocr, rfl⟩ := Option.isSome_iff_exists.1 (hr.2 rfl)
    exact ⟨ocr, rfl, h'⟩

/-- The loop counts the busy replies down, and yields the first reply after them. -/
theorem powerUp (hcard : card.config = config) (hlimit : config.ocrAttempts.Allows busy) (h : Faulty config busy s) :
    Fallible.Succeeds (Card.powerUp card) s fun _ s' => Faulty config 0 s' := by
  subst hcard
  refine .notes_bind (.lift_bind (Driver.Achieves.poll (.powerUpRound _) hlimit idle_round last_round h) ?_)
  rintro _ s' ⟨ocr, rfl, h'⟩
  exact .notes_bind (.pure h')

theorem powerUp_exhausted (hcard : card.config = config) (hlimit : ¬ config.ocrAttempts.Allows busy)
    (h : Faulty config busy s) :
    (Card.powerUp card : Fallible Simulated Card).run.Achieves s fun r _ => r = .error .cardNotReady := by
  subst hcard
  have hpoll : (card.config.ocrAttempts.poll (Card.powerUpRound card.config)).Achieves s fun r _ => r = none := by
    cases hattempts : card.config.ocrAttempts with
    | unbounded => exact absurd (hattempts ▸ PollLimit.allows_unbounded busy) hlimit
    | attempts n =>
      have hfew : n.toNat ≤ busy := Nat.not_lt.1 fun hlt => hlimit fun _ heq => by
        cases hattempts.symm.trans heq
        exact hlt
      exact .attempt_exhausted idle_round hfew h
  refine Fallible.Succeeds.run_notes_bind (Fallible.Succeeds.run_lift_bind hpoll ?_)
  rintro _ s₁ rfl
  exact Fallible.Succeeds.run_notes_bind (.pure rfl)

end Faulty

/-! ### The bring-up under faults -/

section BringUp

variable (hpolicy : config.stepPolicy = .proceed)
  (hroom : ∀ scratch, config.scratchAddress = some scratch → scratch.toNat + 64 ≤ memorySize)

include hpolicy hroom

/-- Nothing stops a bring-up before the power-up. -/
theorem achieves_bringUp_faulty {R : Except Error Card → Prop} (h : Faulty config busy s)
    (hpowerUp : ∀ (card : Card) (s : Simulated), card.config = config → Faulty config busy s →
      (do let card ← Card.powerUp card
          let card ← Card.identify card
          Card.configure card : Fallible Simulated Card).run.Achieves s fun r _ => R r) :
    (Card.bringUp config : Fallible Simulated Card).run.Achieves s fun r _ => R r := by
  rw [Card.bringUp_eq]
  refine Fallible.Succeeds.run_lift_bind (achieves_prepare config s) fun _ s₁ hs₁ => ?_
  have hfresh : (Card.fresh config).config = config := rfl
  have hreset := (stepwise_faulty hpolicy hroom busy).reset hfresh s₁ (h.congr hs₁)
  refine Fallible.Succeeds.run_bind hreset.runs fun card s₂ ⟨h₂, xs, hruns⟩ => ?_
  exact hpowerUp card s₂ (Card.keepsConfig_reset hruns) h₂

theorem succeeds_bringUp_faulty (hlimit : config.ocrAttempts.Allows busy) (h : Faulty config busy s) :
    (Card.bringUp config : Fallible Simulated Card).run.Achieves s fun r _ => ∃ card, r = .ok card := by
  have hstages := stepwise_faulty hpolicy hroom 0
  have hclock (khz : UInt32) (s : Simulated) (h : Faulty config 0 s) :
      Fallible.Succeeds (ExceptT.lift (Clock.program khz)) s fun _ s' => Faulty config 0 s' :=
    .lift ((achieves_program khz s).imp fun _ _ hs' => h.congr hs')
  refine achieves_bringUp_faulty hpolicy hroom h fun card s₂ hcard h₂ => ?_
  refine Fallible.Succeeds.run_bind (h₂.powerUp hcard hlimit).runs fun card₃ s₃ ⟨h₃, xs, hruns⟩ => ?_
  have hcard₃ := (Card.keepsConfig_powerUp hruns).trans hcard
  refine Fallible.Succeeds.run_bind (hstages.identify hcard₃ s₃ h₃).runs fun card₄ s₄ ⟨h₄, xs, hruns⟩ => ?_
  have hcard₄ := (Card.stage_identify.keepsConfig hruns).trans hcard₃
  exact Driver.Achieves.imp (hstages.configure hcard₄ hclock s₄ h₄) fun r _ ⟨card, hr, _⟩ => ⟨card, hr⟩

theorem bringUp_gives_up (hlimit : ¬ config.ocrAttempts.Allows busy) (h : Faulty config busy s) :
    (Card.bringUp config : Fallible Simulated Card).run.Achieves s fun r _ => r = .error .cardNotReady := by
  refine achieves_bringUp_faulty hpolicy hroom h fun card s₂ hcard h₂ => ?_
  rw [ExceptT.run_bind]
  refine (h₂.powerUp_exhausted hcard hlimit).bind fun r s₃ hr => ?_
  subst hr
  exact .pure rfl

/-- No scripted fault can hang or fail a bring-up that skips failed steps: it ends well just if the power-up loop may go
on for longer than the card is busy. -/
theorem bringUp_outlasts_faults (hcmd : config.cmdPoll = .unbounded → ∀ event ∈ s.cmdEvents, testBit event 0)
    (hdata : config.dataPoll = .unbounded → ∀ event ∈ s.dataEvents, testBit event 0) :
    ∃ n, ∀ b, n ≤ b →
      let o := (Card.bringUp config).run.run s b
      (config.ocrAttempts.Allows s.ocrBusyReplies → ∃ card, o.result = .ok (.ok card)) ∧
      (¬ config.ocrAttempts.Allows s.ocrBusyReplies → o.result = .ok (.error .cardNotReady)) := by
  have h : Faulty config s.ocrBusyReplies s := ⟨⟨hcmd, hdata⟩, rfl⟩
  by_cases hlimit : config.ocrAttempts.Allows s.ocrBusyReplies
  · obtain ⟨n, hruns⟩ := (succeeds_bringUp_faulty hpolicy hroom hlimit h).exists_budget
    refine ⟨n, fun b hb => ?_⟩
    obtain ⟨_, hresult, card, rfl⟩ := hruns b hb
    exact ⟨fun _ => ⟨card, hresult⟩, fun hno => absurd hlimit hno⟩
  · obtain ⟨n, hruns⟩ := (bringUp_gives_up hpolicy hroom hlimit h).exists_budget
    refine ⟨n, fun b hb => ?_⟩
    obtain ⟨_, hresult, rfl⟩ := hruns b hb
    exact ⟨fun hyes => absurd hyes hlimit, fun _ => hresult⟩

end BringUp

/-- Commands that never end or end in error, a data phase that times out, and a response that claims a powered-up card. -/
def faulted : Simulated :=
  { fresh with
    cmdEvents := [0, 3, 0, 5, 9], dataEvents := [3], cmdBusyPolls := 2, ocrBusyReplies := 2
    nextResponse := some (oneWord 0x80FF8000) }

theorem bringUp_outlasts_faults_faulted :
    let config (rounds : UInt32) : Config :=
      { cmdPoll := .attempts 3, ocrAttempts := .attempts rounds, scratchAddress := some 0x3FC0 }
    ∃ n, ∀ b, n ≤ b →
      (∃ card, ((Card.bringUp (config 3)).run.run faulted b).result = .ok (.ok card)) ∧
      ((Card.bringUp (config 2)).run.run faulted b).result = .ok (.error .cardNotReady) := by
  intro config
  have hroom (rounds : UInt32) (scratch : UInt32) (hscratch : (config rounds).scratchAddress = some scratch) :
      scratch.toNat + 64 ≤ memorySize := by
    cases hscratch
    decide
  have hdata : ∀ event ∈ faulted.dataEvents, testBit event 0 := List.forall_mem_singleton.2 rfl
  have hallows : (config 3).ocrAttempts.Allows faulted.ocrBusyReplies := by
    rintro _ ⟨⟩
    decide
  have hforbids : ¬ (config 2).ocrAttempts.Allows faulted.ocrBusyReplies := fun h => absurd (h 2 rfl) (by decide)
  have hpolicy (rounds : UInt32) : (config rounds).stepPolicy = .proceed := rfl
  obtain ⟨n, hup⟩ := bringUp_outlasts_faults (hpolicy 3) (hroom 3) nofun fun _ => hdata
  obtain ⟨m, hdown⟩ := bringUp_outlasts_faults (hpolicy 2) (hroom 2) nofun fun _ => hdata
  exact ⟨max n m, fun b hb => ⟨(hup b (by omega)).1 hallows, (hdown b (by omega)).2 hforbids⟩⟩

end Simulated

end SecureDigital

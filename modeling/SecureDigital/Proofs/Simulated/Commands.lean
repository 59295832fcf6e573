import SecureDigital.Device.Simulated
import SecureDigital.Proofs.Achieves
import SecureDigital.Proofs.Transcript

/-!
# Commands on the simulator

What a command does on the simulator is a function: `s.respond c` is the card's response and the simulator
that the command leaves, but for what a launch takes off the script (`consumed`). It is said of a simulator
at rest (`s.atRest`), which has nothing in flight, and the driver sees nothing else of it: whatever the busy
counters are and whatever is scripted, the command comes to its end if its waits do
(`achieves_execute_scripted`). As long as nothing is scripted (`s.Calm`) and the driver waits without bound,
it ends well and brings back the response (`achieves_execute`).
-/

namespace SecureDigital

/-- What the driver keeps of a response of the given kind. -/
def ResponseKind.keep (kind : ResponseKind) (response : Response) : Response :=
  match kind with
  | .none => .zero
  | .short | .long => response

theorem PollLimit.allows_unbounded (k : Nat) : PollLimit.unbounded.Allows k := nofun

namespace Simulated

variable {s s' v w : Simulated} {config : Config} {c : Command}

/-- The simulator without its counters, which is all that reading a register changes. -/
def uncounted (s : Simulated) : Simulated :=
  { s with registerAccesses := 0, cmdBusyPolls := 0, dataBusyPolls := 0, readerPending := 0, timerPolls := 0 }

/-- The simulator without anything in flight between it and the driver. -/
def atRest (s : Simulated) : Simulated :=
  { s.uncounted with
    argument := 0, pllAddress := 0, pllData := 0, pllWords := ∅, cmdEvent := 0, dataEvent := 0, response := .zero }

/-- Nothing is scripted. -/
structure Calm (s : Simulated) : Prop where
  cmdEvents : s.cmdEvents = []
  dataEvents : s.dataEvents = []
  nextResponse : s.nextResponse = none

/-- What is scripted. -/
def script (s : Simulated) : List UInt32 × List UInt32 × Option Response :=
  (s.cmdEvents, s.dataEvents, s.nextResponse)

/-- The event that the script has for the end of a phase. -/
def nextEvent (s : Simulated) : Phase → UInt32
  | .command => s.cmdEvents.head?.getD plainEnd
  | .data => s.dataEvents.head?.getD plainEnd

/-- Where the driver waits without bound, every event in the script ends the wait. -/
structure EndsPhases (config : Config) (s : Simulated) : Prop where
  command : config.cmdPoll = .unbounded → ∀ event ∈ s.cmdEvents, testBit event 0
  data : config.dataPoll = .unbounded → ∀ event ∈ s.dataEvents, testBit event 0

/-- The simulator without a scripted response. -/
def unprompted (s : Simulated) : Simulated := { s with nextResponse := none }

/-- No event is scripted. -/
structure Unscripted (s : Simulated) : Prop where
  cmdEvents : s.cmdEvents = []
  dataEvents : s.dataEvents = []

theorem atRest_uncounted (s : Simulated) : s.uncounted.atRest = s.atRest := rfl

theorem Calm.of_atRest (h : s.atRest.Calm) : s.Calm := ⟨h.cmdEvents, h.dataEvents, h.nextResponse⟩

theorem Calm.atRest (h : s.Calm) : s.atRest.Calm := ⟨h.cmdEvents, h.dataEvents, h.nextResponse⟩

theorem Calm.unscripted (h : s.Calm) : s.Unscripted := ⟨h.cmdEvents, h.dataEvents⟩

section Script

variable (h : s'.script = s.script)

include h

theorem nextResponse_of_script : s'.nextResponse = s.nextResponse := congrArg (·.2.2) h

theorem nextEvent_of_script (phase : Phase) : s'.nextEvent phase = s.nextEvent phase := by
  cases phase with
  | command => exact congrArg (fun script => script.1.head?.getD plainEnd) h
  | data => exact congrArg (fun script => script.2.1.head?.getD plainEnd) h

theorem Calm.of_script (hcalm : s.Calm) : s'.Calm where
  cmdEvents := (congrArg (·.1) h).trans hcalm.cmdEvents
  dataEvents := (congrArg (·.2.1) h).trans hcalm.dataEvents
  nextResponse := (nextResponse_of_script h).trans hcalm.nextResponse

end Script

theorem Unscripted.endsPhases (h : s.Unscripted) (config : Config) : s.EndsPhases config where
  command _ := by rw [h.cmdEvents]; exact nofun
  data _ := by rw [h.dataEvents]; exact nofun

theorem EndsPhases.nextEvent (h : s.EndsPhases config) (phase : Phase) (hlimit : phase.limit config = .unbounded) :
    testBit (s.nextEvent phase) 0 := by
  have hhead {events : List UInt32} (hevents : ∀ event ∈ events, testBit event 0) :
      testBit (events.head?.getD plainEnd) 0 := by
    cases events with
    | nil => rfl
    | cons event events => exact hevents event List.mem_cons_self
  cases phase with
  | command => exact hhead (h.command hlimit)
  | data => exact hhead (h.data hlimit)

theorem atRest_eq_of_uncounted (h : s'.uncounted = s.uncounted) : s'.atRest = s.atRest := by
  rw [← atRest_uncounted s', h, atRest_uncounted]

/-! ### The card's part -/

/-- The simulator once the DMA unit of the command's data phase is set up. -/
def armed (s : Simulated) (c : Command) : Option Simulated :=
  match c.transfer with
  | .none => some s
  | .read dest => some { s with blockSize := c.blockSize, writerAddress := dest }
  | .write src => (s.memory.load? memorySize src c.dataLength.toNat).map fun bytes =>
    { s with blockSize := c.blockSize, readerAddress := src, readerBytes := bytes.toArray }

/-- The card's response to a command that is issued now, and what the command leaves. -/
def hear (s : Simulated) (l : Launch) : Option (Response × Simulated) :=
  let issued : Issued := ⟨l.index, l.argument, s.application⟩
  (answer { s with issued := s.issued ++ [issued] } issued).map fun (response, s) =>
    (response, { s with application := l.index == Opcode.appCmd.index })

def respond (s : Simulated) (c : Command) : Option (Response × Simulated) :=
  (s.armed c).bind fun s => s.hear c.launch

theorem deliver_atRest (s : Simulated) (bytes : Array UInt8) :
    s.atRest.deliver bytes = (s.deliver bytes).map Simulated.atRest := by
  unfold deliver
  show ((s.memory.store? memorySize s.writerAddress bytes).bind fun memory => _) = _
  cases s.memory.store? memorySize s.writerAddress bytes <;> rfl

theorem return_deliver_atRest (s : Simulated) (response : Response) (bytes : Array UInt8) :
    (do return (response, ← s.atRest.deliver bytes)) =
      (do return (response, ← s.deliver bytes) : Option (Response × Simulated)).map fun p => (p.1, p.2.atRest) := by
  rw [deliver_atRest]
  cases s.deliver bytes <;> rfl

theorem answer_atRest (s : Simulated) (issued : Issued) :
    s.atRest.answer issued = (s.answer issued).map fun p => (p.1, p.2.atRest) := by
  unfold answer
  cases Opcode.ofIndex? issued.application issued.index with
  | none => rfl
  | some op =>
    cases op with
    | sendOpCond =>
      have hbusy : s.atRest.ocrBusyReplies = s.ocrBusyReplies := rfl
      simp only [hbusy]
      cases s.ocrBusyReplies <;> rfl
    | switchFunc => exact return_deliver_atRest s _ _
    | sendScr => exact return_deliver_atRest s _ _
    | readSingleBlock =>
      show (corrupt s.readCorruption (s.block issued.argument)).bind _ =
        ((corrupt s.readCorruption (s.block issued.argument)).bind _).map _
      cases corrupt s.readCorruption (s.block issued.argument) with
      | none => rfl
      | some sent => exact return_deliver_atRest s _ sent
    | _ => rfl

theorem eq_of_return_deliver {response response' : Response} {bytes : Array UInt8}
    (h : (do return (response, ← s.deliver bytes) : Option (Response × Simulated)) = some (response', w)) :
    response' = response ∧ ∃ memory, s.memory.store? memorySize s.writerAddress bytes = some memory ∧
      w = { s with memory } := by
  unfold deliver at h
  cases hstore : s.memory.store? memorySize s.writerAddress bytes with
  | none =>
    rw [hstore] at h
    cases h
  | some memory =>
    rw [hstore] at h
    cases h
    exact ⟨rfl, memory, rfl, rfl⟩

/-- All that a command can change of the card and the memory. -/
theorem answer_frame {issued : Issued} {response : Response} (h : s.answer issued = some (response, w)) :
    ∃ ocrBusyReplies memory blocks, w = { s with ocrBusyReplies, memory, blocks } := by
  unfold answer at h
  split at h
  case h_4 =>
    split at h <;> cases h <;> exact ⟨_, _, _, rfl⟩
  case h_9 | h_10 =>
    obtain ⟨-, memory, -, rfl⟩ := eq_of_return_deliver h
    exact ⟨_, memory, _, rfl⟩
  case h_11 =>
    obtain ⟨sent, -, h⟩ := Option.bind_eq_some_iff.1 h
    obtain ⟨-, memory, -, rfl⟩ := eq_of_return_deliver h
    exact ⟨_, memory, _, rfl⟩
  all_goals
    cases h
    exact ⟨_, _, _, rfl⟩

theorem script_of_answer {issued : Issued} {response : Response} (h : s.answer issued = some (response, w)) :
    w.script = s.script := by
  obtain ⟨_, _, _, rfl⟩ := answer_frame h
  rfl

theorem script_of_armed (h : s.armed c = some w) : w.script = s.script := by
  unfold armed at h
  split at h
  case h_1 | h_2 =>
    cases h
    rfl
  case h_3 =>
    obtain ⟨bytes, -, rfl⟩ := Option.map_eq_some_iff.1 h
    rfl

theorem script_of_hear {l : Launch} {response : Response} (h : s.hear l = some (response, w)) :
    w.script = s.script ∧ w.application = (l.index == Opcode.appCmd.index) := by
  obtain ⟨⟨response', t⟩, hanswer, heq⟩ := Option.map_eq_some_iff.1 h
  obtain ⟨rfl, rfl⟩ := Prod.mk.inj heq
  exact ⟨(script_of_answer hanswer :), rfl⟩

theorem script_of_respond {response : Response} (h : s.respond c = some (response, w)) :
    w.script = s.script ∧ w.application = (c.index == Opcode.appCmd.index) := by
  obtain ⟨v, harmed, hheard⟩ := Option.bind_eq_some_iff.1 h
  obtain ⟨hscript, happlication⟩ := script_of_hear hheard
  exact ⟨hscript.trans (script_of_armed harmed), happlication⟩

/-- What a launch takes off the script. -/
def consumed (s : Simulated) (hasData : Bool) : Simulated :=
  { s with
    nextResponse := none
    cmdEvents := s.cmdEvents.tail
    dataEvents := if hasData then s.dataEvents.tail else s.dataEvents }

theorem Unscripted.consumed (h : s.Unscripted) (hasData : Bool) : s.consumed hasData = s.unprompted := by
  simp [Simulated.consumed, unprompted, h.cmdEvents, h.dataEvents]

/-! ### Launching a command -/

theorem index_read_word (hindex : c.index < 64) : (Command.indexField.read c.word).toUInt8 = c.index :=
  Command.exchange_index_of_lt hindex []

/-- The simulator as a launch leaves it, when the card has answered with `response`. -/
def launched (s : Simulated) (index : UInt8) (response : Response) (hasData : Bool) : Simulated :=
  { s with
    response := s.nextResponse.getD response
    nextResponse := none
    cmdEvent := s.cmdEvents.head?.getD plainEnd
    cmdEvents := s.cmdEvents.tail
    dataEvent := if hasData then s.dataEvents.head?.getD plainEnd else s.dataEvent
    dataEvents := if hasData then s.dataEvents.tail else s.dataEvents
    application := index == Opcode.appCmd.index }

theorem launch_eq (s : Simulated) (word : UInt32) :
    s.launch word =
      let issued : Issued := ⟨(Command.indexField.read word).toUInt8, s.argument, s.application⟩
      (answer { s with issued := s.issued ++ [issued] } issued).map fun p =>
        p.2.launched issued.index p.1 (Command.transferField.read word ≠ 0) := by
  unfold launch
  simp only [Option.bind_eq_bind]
  cases answer _ _ with
  | none => rfl
  | some p =>
    simp only [Option.bind_some, Option.map_some, launched]
    split <;> simp_all

theorem atRest_launched (s : Simulated) (index : UInt8) (response : Response) (hasData : Bool) :
    (s.launched index response hasData).atRest =
      { s.atRest with application := index == Opcode.appCmd.index }.consumed hasData := by
  cases hasData <;> rfl

/-- The launch of a command leaves its response and what the script has for it. -/
theorem launch_word {response : Response} (hindex : c.index < 64) (hargument : s.argument = c.argument)
    (h : s.atRest.hear c.launch = some (response, w)) :
    ∃ s', s.launch c.word = some s' ∧ s'.atRest = w.consumed c.hasData ∧
      s'.response = s.nextResponse.getD response ∧ s'.cmdEvent = s.nextEvent .command ∧
      (c.hasData → s'.dataEvent = s.nextEvent .data) := by
  have hheard : ((answer { s with issued := s.issued ++ [⟨c.index, s.argument, s.application⟩] }
      ⟨c.index, s.argument, s.application⟩).map fun p => (p.1, p.2.atRest)).map (fun p =>
        (p.1, { p.2 with application := c.index == Opcode.appCmd.index })) = some (response, w) := by
    rw [← answer_atRest, hargument]
    exact h
  obtain ⟨_, hrest, heq⟩ := Option.map_eq_some_iff.1 hheard
  obtain ⟨⟨response', t⟩, hanswer, rfl⟩ := Option.map_eq_some_iff.1 hrest
  obtain ⟨rfl, rfl⟩ := Prod.mk.inj heq
  have hscript : t.script = s.script := (script_of_answer hanswer :)
  obtain ⟨hcmdEvents, hdataEvents, hnextResponse⟩ : t.cmdEvents = s.cmdEvents ∧ t.dataEvents = s.dataEvents ∧
      t.nextResponse = s.nextResponse := by simpa [script] using hscript
  have hdata : decide (Command.transferField.read c.word ≠ 0) = c.hasData := c.exchange_hasData []
  refine ⟨t.launched c.index response' c.hasData, ?_, t.atRest_launched _ _ _, ?_, ?_, fun hdata => ?_⟩
  · rw [launch_eq, index_read_word hindex, hdata]
    simp only [hanswer, Option.map_some]
  · simp [launched, hnextResponse]
  · simp [launched, nextEvent, hcmdEvents]
  · simp [launched, nextEvent, hdataEvents, hdata]

/-! ### The memory of the DMA units -/

theorem achieves_readMemory {address : UInt32} {length : Nat} (hroom : address.toNat + length ≤ memorySize) :
    (Driver.readMemory address length : Driver Simulated _).Achieves s fun bytes s' =>
      bytes = s.memory.load address length ∧ s' = s := by
  have hread : Device.readMemory s address length = some (s.memory.load address length, s) := by
    show (s.memory.load? memorySize address length).map _ = _
    rw [Memory.load?_eq_some_iff.2 ⟨hroom, rfl⟩]
    rfl
  exact .readMemory hread ⟨rfl, rfl⟩

theorem achieves_writeMemory {address : UInt32} {bytes : Array UInt8} (hroom : address.toNat + bytes.size ≤ memorySize) :
    (Driver.writeMemory address bytes : Driver Simulated Unit).Achieves s fun _ s' =>
      s' = { s with memory := s.memory.store address bytes } := by
  have hwrite : Device.writeMemory s address bytes = some { s with memory := s.memory.store address bytes } := by
    show (s.memory.store? memorySize address bytes).map _ = _
    rw [Memory.store?_eq_some_iff.2 ⟨hroom, rfl⟩]
    rfl
  exact .writeMemory hwrite rfl

/-! ### Waiting -/

theorem uncounted_read (s : Simulated) (register : StatusRegister) :
    (Device.read s register).2.uncounted = s.uncounted := by
  cases register
  case cmdEvent | dataEvent | readerDone | timerValue =>
    simp only [Device.read, readRegister]
    split <;> rfl
  case response | pllReady => rfl

/-- A register whose counter runs down is polled until the value is there. -/
theorem achieves_pollRegister {α : Type} {limit : PollLimit} {register : StatusRegister} {f : UInt32 → Option α} {a : α}
    (left : Simulated → Nat) (hlimit : limit.Allows (left s))
    (hbusy : ∀ t i, left t = i + 1 → f (Device.read t register).1 = none ∧ left (Device.read t register).2 = i)
    (hdone : ∀ t, t.uncounted = s.uncounted → left t = 0 → f (Device.read t register).1 = some a) :
    (limit.poll (Driver.read register >>= fun word => pure (f word)) : Driver Simulated (Option α)).Achieves s
      fun r s' => r = some a ∧ s'.uncounted = s.uncounted := by
  let rounds (i : Nat) (t : Simulated) : Prop := left t = i ∧ t.uncounted = s.uncounted
  have hidle (i : Nat) (t : Simulated) (ht : rounds (i + 1) t) :
      (Driver.read register >>= fun word => pure (f word)).Achieves t fun r t' => r = none ∧ rounds i t' := by
    obtain ⟨hnone, hleft⟩ := hbusy t i ht.1
    exact .read_bind (.pure ⟨hnone, hleft, (uncounted_read t register).trans ht.2⟩)
  have hlast (t : Simulated) (ht : rounds 0 t) :
      (Driver.read register >>= fun word => pure (f word)).Achieves t fun r t' =>
        ∃ a', r = some a' ∧ a' = a ∧ t'.uncounted = s.uncounted :=
    .read_bind (.pure ⟨a, hdone t ht.2 ht.1, rfl, (uncounted_read t register).trans ht.2⟩)
  refine (Driver.Achieves.poll (.of_read f) hlimit hidle hlast ⟨rfl, rfl⟩).imp fun r s' hr => ?_
  obtain ⟨a', rfl, rfl, hs'⟩ := hr
  exact ⟨rfl, hs'⟩

/-- The event that a phase ends with. -/
def event (s : Simulated) : Phase → UInt32
  | .command => s.cmdEvent
  | .data => s.dataEvent

def busyPolls (s : Simulated) : Phase → Nat
  | .command => s.cmdBusyPolls
  | .data => s.dataBusyPolls

theorem read_of_busy {phase : Phase} {i : Nat} (h : s.busyPolls phase = i + 1) :
    (Device.read s phase.register).1 = 0 ∧ (Device.read s phase.register).2.busyPolls phase = i := by
  cases phase
  all_goals
    simp only [busyPolls] at h
    simp only [Phase.register, Device.read, readRegister, count, h, busyPolls, and_self]

theorem read_of_idle {phase : Phase} (h : s.busyPolls phase = 0) :
    (Device.read s phase.register).1 = s.event phase := by
  cases phase
  all_goals
    simp only [busyPolls] at h
    simp only [Phase.register, Device.read, readRegister, count, h, event]

theorem event_of_uncounted (h : s'.uncounted = s.uncounted) (phase : Phase) : s'.event phase = s.event phase := by
  cases phase with
  | command => exact (congrArg cmdEvent h :)
  | data => exact (congrArg dataEvent h :)

/-- The wait for a phase comes to an end, by its limit or by the event. -/
theorem achieves_await (phase : Phase) (hend : phase.limit config = .unbounded → testBit (s.event phase) 0) :
    (phase.await config : Driver Simulated Status).Achieves s fun status s' => s'.uncounted = s.uncounted ∧
      (phase.limit config = .unbounded → status = phase.verdict (some (s.event phase))) := by
  have hpoll : ((phase.limit config).poll phase.probe : Driver Simulated (Option Status)).Achieves s fun r s' =>
      s'.uncounted = s.uncounted ∧ (phase.limit config = .unbounded → r = some (phase.verdict (some (s.event phase)))) := by
    cases hlimit : phase.limit config with
    | unbounded =>
      refine (achieves_pollRegister (busyPolls · phase) (PollLimit.allows_unbounded _) (fun t i ht => ?_)
        fun t ht hidle => ?_).imp fun r s' ⟨hr, hs'⟩ => ⟨hs', fun _ => hr⟩
      · obtain ⟨hzero, hleft⟩ := read_of_busy ht
        refine ⟨?_, hleft⟩
        rw [hzero, Phase.ofEvent?_ofWord]
        rfl
      · rw [read_of_idle hidle, event_of_uncounted ht, Phase.ofEvent?_ofWord, if_pos (hend hlimit)]
    | attempts n =>
      have hround (t : Simulated) (ht : t.uncounted = s.uncounted) :
          (phase.probe : Driver Simulated (Option Status)).Achieves t fun _ t' => t'.uncounted = s.uncounted :=
        .read_bind (.pure ((uncounted_read t phase.register).trans ht))
      exact (Driver.Achieves.attempt_keeps hround n.toNat rfl).imp fun r s' hs' => ⟨hs', nofun⟩
  refine hpoll.bind fun r s' ⟨hs', hr⟩ => ?_
  cases r with
  | none => exact .notes_bind (.pure ⟨hs', fun hlimit => nomatch hr hlimit⟩)
  | some status => exact .pure ⟨hs', fun hlimit => Option.some.inj (hr hlimit)⟩

theorem response_of_uncounted (h : s'.uncounted = s.uncounted) : s'.response = s.response :=
  show s'.uncounted.response = s.uncounted.response from congrArg _ h

theorem read_response_bind {α : Type} {word : UInt8} {f : UInt32 → Driver Simulated α} {Q : α → Simulated → Prop}
    (hf : ∀ s', s'.uncounted = s.uncounted → (f (s.response.word word)).Achieves s' Q) :
    (Driver.read (.response word) >>= f).Achieves s Q :=
  .read_bind (hf _ rfl)

theorem achieves_collect (kind : ResponseKind) (s : Simulated) :
    (Command.collect kind : Driver Simulated Response).Achieves s fun response s' =>
      response = kind.keep s.response ∧ s'.uncounted = s.uncounted := by
  cases kind with
  | none => exact .pure ⟨rfl, rfl⟩
  | short | long =>
    refine read_response_bind fun s₁ h₁ => read_response_bind fun s₂ h₂ => read_response_bind fun s₃ h₃ =>
      read_response_bind fun s₄ h₄ => .pure ⟨?_, ?_⟩
    · rw [response_of_uncounted h₃, response_of_uncounted h₂, response_of_uncounted h₁]
      ext i hi
      match i, hi with
      | 0, _ | 1, _ | 2, _ | 3, _ => rfl
    · rw [h₄, h₃, h₂, h₁]

theorem achieves_finish (hend : c.hasData → config.dataPoll = .unbounded → testBit s.dataEvent 0) :
    (c.finish config : Driver Simulated Status).Achieves s fun status s' => s'.uncounted = s.uncounted ∧
      (config.dataPoll = .unbounded → (c.hasData → s.dataEvent = plainEnd) → status = .ok) := by
  unfold Command.finish
  by_cases hdata : c.hasData
  · rw [if_pos hdata]
    refine (achieves_await .data (hend hdata)).bind fun status s' ⟨hs', hstatus⟩ => ?_
    refine .notes_bind (.pure ⟨hs', fun hlimit hevent => ?_⟩)
    have hplain : s.event .data = plainEnd := hevent hdata
    rw [hstatus hlimit, hplain]
    rfl
  · rw [if_neg hdata]
    exact .pure ⟨rfl, fun _ _ => rfl⟩

/-! ### The clock generator and the timer -/

/-- A register of the clock generator or the timer has no part in any command. -/
theorem write_bind_atRest {α : Type} {register : ControlRegister} {value : UInt32} {f : Unit → Driver Simulated α}
    {Q : α → Simulated → Prop}
    (hwrite : ∃ s', Device.write s register value = some s' ∧ s'.atRest = s.atRest)
    (hf : ∀ s', s'.atRest = s.atRest → (f ()).Achieves s' Q) : (Driver.write register value >>= f).Achieves s Q := by
  obtain ⟨s', hwrite, hs'⟩ := hwrite
  exact .write_bind hwrite (hf s' hs')

theorem achieves_awaitReady (s : Simulated) :
    (Clock.awaitReady : Driver Simulated Unit).Achieves s fun _ s' => s'.atRest = s.atRest := by
  let rounds (i : Nat) (t : Simulated) : Prop := i = 0 ∧ t.uncounted = s.uncounted
  refine .repeatUntil (I := rounds) (.of_read _) (fun i t ht => ?_) (fun t ht => ?_) (k := 0) ⟨rfl, rfl⟩
  · cases ht.1
  · exact .read_bind (.pure ⟨(), rfl, atRest_eq_of_uncounted ((uncounted_read t .pllReady).trans ht.2)⟩)

theorem achieves_writeCounter (address word : UInt32) (s : Simulated) :
    (Clock.writeCounter address word : Driver Simulated Unit).Achieves s fun _ s' => s'.atRest = s.atRest := by
  refine write_bind_atRest ⟨_, rfl, rfl⟩ fun s₁ hs₁ => write_bind_atRest ⟨_, rfl, rfl⟩ fun s₂ hs₂ =>
    write_bind_atRest ⟨_, rfl, rfl⟩ fun s₃ hs₃ => (achieves_awaitReady s₃).imp fun _ s₄ hs₄ => ?_
  rw [hs₄, hs₃, hs₂, hs₁]

theorem achieves_program (khz : UInt32) (s : Simulated) :
    (Clock.program khz : Driver Simulated Ratio).Achieves s fun _ s' => s'.atRest = s.atRest := by
  unfold Clock.program
  generalize Ratio.nearest khz.toNat = ratio
  have hcounter (p : UInt32 × UInt32) (t : Simulated) (ht : t.atRest = s.atRest) :
      (Clock.writeCounter p.1 p.2 : Driver Simulated Unit).Achieves t fun _ t' => t'.atRest = s.atRest :=
    (achieves_writeCounter p.1 p.2 t).imp fun _ t' ht' => ht'.trans ht
  have hcounters : ((Clock.counters ratio).forM fun p => Clock.writeCounter p.1 p.2).Achieves s
      fun _ s' => s'.atRest = s.atRest := .forM hcounter rfl
  exact .notes_bind (hcounters.bind fun _ s' hs' => .pure hs')

theorem achieves_awaitZero (s : Simulated) :
    (Timer.awaitZero : Driver Simulated Unit).Achieves s fun _ s' => s'.atRest = s.atRest := by
  let rounds (i : Nat) (t : Simulated) : Prop := t.timerPolls = i ∧ t.uncounted = s.uncounted
  have hwrite (t : Simulated) : Device.write t .timerUpdate 1 = some t.count := rfl
  refine .repeatUntil (I := rounds) .latch (fun i t ht => ?_) (fun t ht => ?_) ⟨rfl, rfl⟩
  · have hread : Device.read t.count .timerValue = (1, { t.count.count with timerPolls := i }) := by
      simp only [Device.read, readRegister, count, ht.1]
    refine .write_bind (hwrite t) (.read_bind ?_)
    rw [hread]
    exact .pure ⟨rfl, rfl, ht.2⟩
  · have hread : Device.read t.count .timerValue = (0, t.count.count) := by
      simp only [Device.read, readRegister, count, ht.1]
    refine .write_bind (hwrite t) (.read_bind ?_)
    rw [hread]
    exact .pure ⟨(), rfl, atRest_eq_of_uncounted ht.2⟩

theorem achieves_delay (sysClkHz ms : UInt32) (s : Simulated) :
    (Timer.delay sysClkHz ms : Driver Simulated Unit).Achieves s fun _ s' => s'.atRest = s.atRest := by
  refine write_bind_atRest ⟨_, rfl, rfl⟩ fun s₁ hs₁ => write_bind_atRest ⟨_, rfl, rfl⟩ fun s₂ hs₂ =>
    write_bind_atRest ⟨_, rfl, rfl⟩ fun s₃ hs₃ => write_bind_atRest ⟨_, rfl, rfl⟩ fun s₄ hs₄ =>
      (achieves_awaitZero s₄).imp fun _ s₅ hs₅ => ?_
  rw [hs₅, hs₄, hs₃, hs₂, hs₁]

theorem achieves_prepare (config : Config) (s : Simulated) :
    (Card.prepare config : Driver Simulated Unit).Achieves s fun _ s' => s'.atRest = s.atRest := by
  refine write_bind_atRest ⟨_, rfl, rfl⟩ fun s₁ h₁ => write_bind_atRest ⟨_, rfl, rfl⟩ fun s₂ h₂ => ?_
  refine (achieves_program _ s₂).bind fun _ s₃ h₃ => (achieves_delay _ _ s₃).imp fun _ s₄ h₄ => ?_
  rw [h₄, h₃, h₂, h₁]

/-! ### Running a command -/

theorem write_readerLength {src : UInt32} {length : UInt32} {bytes : Vector UInt8 length.toNat}
    (h : s.memory.load? memorySize src length.toNat = some bytes) (haddress : s.readerAddress = src) :
    ∃ s', Device.write s .readerLength length = some s' ∧
      s'.atRest = { s.atRest with readerBytes := bytes.toArray } ∧ s'.argument = s.argument := by
  refine ⟨{ s.count with readerBytes := bytes.toArray, readerPending := s.readerBusyPolls }, ?_, rfl, rfl⟩
  show ((s.memory.load? memorySize s.readerAddress length.toNat).bind _) = _
  rw [haddress, h]
  rfl

theorem achieves_arm (h : s.atRest.armed c = some v) :
    (c.arm : Driver Simulated Unit).Achieves s fun _ s' => s'.atRest = v ∧ s'.argument = s.argument := by
  have hsize (t : Simulated) : ∃ t', Device.write t .blockSize c.blockSize = some t' ∧
      t'.atRest = { t.atRest with blockSize := c.blockSize } ∧ t'.argument = t.argument := ⟨_, rfl, rfl, rfl⟩
  have hcount (t : Simulated) : ∃ t', Device.write t .blockCount c.blockCount = some t' ∧
      t'.atRest = t.atRest ∧ t'.argument = t.argument := ⟨_, rfl, rfl, rfl⟩
  obtain ⟨s₁, hwrite₁, hrest₁, hargument₁⟩ := hsize s
  obtain ⟨s₂, hwrite₂, hrest₂, hargument₂⟩ := hcount s₁
  unfold armed at h
  unfold Command.arm
  cases hc : c.transfer with
  | none =>
    rw [hc] at h
    cases h
    exact .pure ⟨rfl, rfl⟩
  | read dest =>
    rw [hc] at h
    cases h
    have hwrite : Device.write s₂ .writerAddress dest = some { s₂.count with writerAddress := dest } := rfl
    refine .write_bind hwrite₁ (.write_bind hwrite₂ (.write hwrite ⟨?_, ?_⟩))
    · show { s₂.atRest with writerAddress := dest } = _
      rw [hrest₂, hrest₁]
    · show s₂.argument = s.argument
      rw [hargument₂, hargument₁]
  | write src =>
    rw [hc] at h
    obtain ⟨bytes, hload, rfl⟩ := Option.map_eq_some_iff.1 h
    obtain ⟨s₃, hwrite₃, hrest₃, haddress₃, hargument₃⟩ : ∃ s₃, Device.write s₂ .readerAddress src = some s₃ ∧
      s₃.atRest = { s₂.atRest with readerAddress := src } ∧ s₃.readerAddress = src ∧ s₃.argument = s₂.argument :=
        ⟨_, rfl, rfl, rfl, rfl⟩
    have hmemory : s₃.memory = s.memory := by
      show s₃.atRest.memory = s.atRest.memory
      rw [hrest₃, hrest₂, hrest₁]
    obtain ⟨s₄, hwrite₄, hrest₄, hargument₄⟩ := write_readerLength (hmemory ▸ hload) haddress₃
    refine .write_bind hwrite₁ (.write_bind hwrite₂ (.write_bind hwrite₃ (.write hwrite₄ ⟨?_, ?_⟩)))
    · rw [hrest₄, hrest₃, hrest₂, hrest₁]
    · rw [hargument₄, hargument₃, hargument₂, hargument₁]

/-- A command comes to its end, whatever is scripted, and brings back the response that the script or else the card has
for it. It ends well where no event is scripted. -/
theorem achieves_execute_scripted {response : Response} (hends : s.EndsPhases config) (hindex : c.index < 64)
    (h : s.atRest.respond c = some (response, w)) :
    (c.execute config : Driver Simulated Reply).Achieves s fun reply s' =>
      reply.response = c.response.keep (s.nextResponse.getD response) ∧ s'.atRest = w.consumed c.hasData ∧
        (config.cmdPoll = .unbounded → config.dataPoll = .unbounded → s.Unscripted →
          reply.commandStatus = .ok ∧ reply.status = .ok) := by
  obtain ⟨v, harmed, hheard⟩ := Option.bind_eq_some_iff.1 h
  obtain ⟨s₁, hwrite₁, hrest₁, hargument₁⟩ : ∃ s₁, Device.write s .argument c.argument = some s₁ ∧
    s₁.atRest = s.atRest ∧ s₁.argument = c.argument := ⟨_, rfl, rfl, rfl⟩
  rw [Command.execute_eq]
  refine .notes_bind (.write_bind hwrite₁ ?_)
  refine (achieves_arm (hrest₁ ▸ harmed)).bind fun _ s₂ ⟨hrest₂, hargument₂⟩ => ?_
  have hscript₂ : s₂.count.script = s.script := by
    show s₂.atRest.script = s.atRest.script
    rw [hrest₂, script_of_armed harmed]
  have hheard₂ : s₂.count.atRest.hear c.launch = some (response, w) := hrest₂ ▸ hheard
  obtain ⟨s₃, hlaunch, hrest₃, hresponse, hcmdEvent, hdataEvent⟩ :=
    launch_word (s := s₂.count) hindex (hargument₂.trans hargument₁) hheard₂
  rw [nextResponse_of_script hscript₂] at hresponse
  rw [nextEvent_of_script hscript₂] at hcmdEvent hdataEvent
  refine .write_bind hlaunch ?_
  -- The command phase, the response and the data phase change nothing but counters.
  have hcommand : s₃.event .command = s.nextEvent .command := hcmdEvent
  refine (achieves_await .command (hcommand ▸ hends.nextEvent .command)).bind fun status s₄ ⟨hs₄, hstatus⟩ => ?_
  refine (achieves_collect c.response s₄).bind fun collected s₅ ⟨hcollected, hs₅⟩ => ?_
  rw [response_of_uncounted hs₄, hresponse] at hcollected
  have hrest₅ : s₅.atRest = w.consumed c.hasData := by
    rw [atRest_eq_of_uncounted hs₅, atRest_eq_of_uncounted hs₄, hrest₃]
  have hdataEvent₅ (hdata : c.hasData) : s₅.dataEvent = s.nextEvent .data := by
    have heq : s₅.uncounted.dataEvent = s₃.uncounted.dataEvent := by rw [hs₅, hs₄]
    exact heq.trans (hdataEvent hdata)
  have hcommandOk (hcmd : config.cmdPoll = .unbounded) (hnone : s.Unscripted) : status = .ok := by
    rw [hstatus hcmd, hcommand, nextEvent, hnone.cmdEvents]
    rfl
  by_cases hok : status = .ok
  · rw [if_pos hok]
    refine (achieves_finish fun hdata hlimit => ?_).bind fun final s₆ ⟨hs₆, hfinal⟩ => .pure ⟨hcollected, ?_, ?_⟩
    · rw [hdataEvent₅ hdata]
      exact hends.nextEvent .data hlimit
    · rw [atRest_eq_of_uncounted hs₆, hrest₅]
    · refine fun _ hdata hnone => ⟨hok, hfinal hdata fun hc => ?_⟩
      rw [hdataEvent₅ hc, nextEvent, hnone.dataEvents]
      rfl
  · rw [if_neg hok]
    exact .notes_bind (.pure ⟨hcollected, hrest₅, fun hcmd _ hnone => absurd (hcommandOk hcmd hnone) hok⟩)

/-- A command on a calm simulator ends well, with the response that the card has for it. -/
theorem achieves_execute {response : Response} (hcmd : config.cmdPoll = .unbounded)
    (hdata : config.dataPoll = .unbounded) (hcalm : s.Calm) (hindex : c.index < 64)
    (h : s.atRest.respond c = some (response, w)) :
    (c.execute config : Driver Simulated Reply).Achieves s fun reply s' =>
      reply = ⟨.ok, .ok, c.response.keep response⟩ ∧ s'.atRest = w := by
  have hw : w.Calm := .of_script (script_of_respond h).1 hcalm.atRest
  have hexecute := achieves_execute_scripted (hcalm.unscripted.endsPhases config) hindex h
  refine hexecute.imp fun reply s' ⟨hresponse, hs', hstatus⟩ => ⟨?_, ?_⟩
  · obtain ⟨hcommandStatus, hok⟩ := hstatus hcmd hdata hcalm.unscripted
    rw [hcalm.nextResponse] at hresponse
    cases reply
    simp_all
  · rw [hs', hw.unscripted.consumed, unprompted, ← hw.nextResponse]

end Simulated

end SecureDigital

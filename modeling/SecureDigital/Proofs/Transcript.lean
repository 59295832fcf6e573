import SecureDigital.Device.Scripted
import SecureDigital.Proofs.Execute

/-!
# The transcript of a command

A `Transcript` is what the driver sees of a command that returns: the events of each phase, the event that ended the
wait for it, and the response. `Transcript.accesses` are all accesses of the command, in order, and
`Transcript.reply` is what it comes back with. Which transcripts there are is said by `Transcript.Valid`, and how a
single wait goes by `Awaited`: event words are spelled out in their bits here.
-/

namespace SecureDigital

/-- The wait for an event under `limit` has read these words; the last one, if it has the done bit, is the report. -/
inductive Awaited (limit : PollLimit) : List UInt32 → Option UInt32 → Prop
  | reported {idle : List UInt32} {word : UInt32} (hidle : ∀ w ∈ idle, testBit w 0 = false)
      (hlimit : limit.Allows idle.length) (hdone : testBit word 0) : Awaited limit (idle ++ [word]) (some word)
  | exhausted {idle : List UInt32} {n : UInt32} (hidle : ∀ w ∈ idle, testBit w 0 = false)
      (hlimit : limit = .attempts n) (hlength : idle.length = n.toNat) : Awaited limit idle none

/-- How a phase ended with this report, or without one. -/
def Phase.verdict (phase : Phase) : Option UInt32 → Status
  | none => .timeout
  | some word =>
    if testBit word 2 then .timeout
    else if phase = .data ∧ testBit word 1 then .writeError
    else if testBit word 3 then .crcError
    else .ok

namespace Phase
variable {phase : Phase}

theorem ofEvent?_ofWord (word : UInt32) :
    Status.ofEvent? phase (Event.ofWord word) = if testBit word 0 then some (phase.verdict (some word)) else none := by
  unfold Status.ofEvent? Event.ofWord verdict
  by_cases hdone : testBit word 0
  · simp only [hdone, Bool.not_true, Bool.false_eq_true, if_false, if_true]
    split
    · rfl
    split
    · rfl
    split <;> rfl
  · simp [hdone]

end Phase

/-- What the wait has read tells how the phase ended. -/
theorem Awaited.outcome_eq {phase : Phase} {limit : PollLimit} {events : List UInt32} {report : Option UInt32}
    (h : Awaited limit events report) : phase.outcome events = phase.verdict report := by
  have hnone {idle : List UInt32} (hidle : ∀ w ∈ idle, testBit w 0 = false) :
      ∀ w ∈ idle, Status.ofEvent? phase (Event.ofWord w) = none := by
    intro w hw
    rw [Phase.ofEvent?_ofWord, hidle w hw]
    rfl
  cases h with
  | reported _ _ hdone => exact Phase.outcome_append (by rw [Phase.ofEvent?_ofWord, if_pos hdone])
  | exhausted hidle => exact Phase.outcome_of_idle (hnone hidle)

structure Transcript where
  cmdEvents : List UInt32
  cmdReport : Option UInt32
  response : Response
  dataEvents : List UInt32
  dataReport : Option UInt32

namespace Transcript

def commandStatus (t : Transcript) : Status := Phase.verdict .command t.cmdReport

def dataStatus (t : Transcript) : Status := Phase.verdict .data t.dataReport

def accesses (t : Transcript) (c : Command) : List Access :=
  .write .argument c.argument :: c.armed.map Access.ofWrite ++
    .write .command c.word :: (t.cmdEvents.map (.read .cmdEvent) ++ c.response.reads t.response ++
      t.dataEvents.map (.read .dataEvent))

def reply (t : Transcript) (c : Command) : Reply where
  status := if t.commandStatus = .ok ∧ c.transfer ≠ .none then Phase.verdict .data t.dataReport else t.commandStatus
  commandStatus := t.commandStatus
  response := t.response

/-- There is a data phase to wait for only after a command phase that went well. -/
structure Valid (config : Config) (c : Command) (t : Transcript) : Prop where
  command : Awaited config.cmdPoll t.cmdEvents t.cmdReport
  response : c.response = .none → t.response = .zero
  data : t.commandStatus = .ok → c.transfer ≠ .none → Awaited config.dataPoll t.dataEvents t.dataReport
  noData : ¬ (t.commandStatus = .ok ∧ c.transfer ≠ .none) → t.dataEvents = []

/-! ### What a transcript reads of each register -/

section Values
variable (t : Transcript) (c : Command)

theorem servesCommand_accesses : ∀ a ∈ t.accesses c, a.servesCommand :=
  Command.servesCommand_launched fun _ => Command.isReport_answers

theorem values_accesses (register : StatusRegister) :
    Access.values register (t.accesses c) =
      (c.exchange (c.answers t.cmdEvents t.response t.dataEvents)).values register :=
  Command.values_launched

theorem values_cmdEvent : Access.values .cmdEvent (t.accesses c) = t.cmdEvents :=
  (t.values_accesses c _).trans Command.values_cmdEvent

theorem values_dataEvent : Access.values .dataEvent (t.accesses c) = t.dataEvents :=
  (t.values_accesses c _).trans Command.values_dataEvent

end Values

end Transcript

variable {σ : Type} [Device σ]

namespace Driver.Runs
variable {config : Config} {xs : List Access}

theorem await_awaited {phase : Phase} {status : Status}
    (h : (phase.await config : Driver σ Status).Runs (.ok status) xs) :
    ∃ events report, xs = events.map (.read phase.register) ∧ Awaited (phase.limit config) events report ∧
      status = phase.verdict report := by
  have hidle' {idle : List UInt32} (h : ∀ w ∈ idle, Status.ofEvent? phase (Event.ofWord w) = none) :
      ∀ w ∈ idle, testBit w 0 = false := by
    intro w hw
    have hnone := h w hw
    rw [Phase.ofEvent?_ofWord] at hnone
    simpa using hnone
  obtain ⟨result, ys, zs, rfl, hm, hf⟩ := h.bind_ok
  have hpolled := hm.pollRegister
  cases result with
  | none =>
    obtain ⟨hr, rfl⟩ := hf.of_notes_bind.of_pure
    cases hr
    cases hpolled with
    | spent hidle hlimit hlength =>
      exact ⟨_, none, List.append_nil _, .exhausted (hidle' hidle) hlimit hlength, rfl⟩
  | some s =>
    obtain ⟨hr, rfl⟩ := hf.of_pure
    cases hr
    cases hpolled with
    | @hit idle word _ hidle hlimit hlast =>
      rw [Phase.ofEvent?_ofWord] at hlast
      split at hlast
      · next hdone =>
        cases hlast
        exact ⟨_, some word, List.append_nil _, .reported (hidle' hidle) hlimit hdone, rfl⟩
      · cases hlast

theorem finish_awaited {c : Command} {status : Status}
    (h : (c.finish config : Driver σ Status).Runs (.ok status) xs) :
    if c.transfer ≠ .none then
      ∃ events report, xs = events.map (.read .dataEvent) ∧ Awaited config.dataPoll events report ∧
        status = Phase.verdict .data report
    else status = .ok ∧ xs = [] := by
  unfold Command.finish Command.hasData at h
  split
  · next hdata =>
    rw [if_pos (by simpa using hdata)] at h
    obtain ⟨s, ys, zs, rfl, hm, hf⟩ := h.bind_ok
    obtain ⟨hr, rfl⟩ := hf.of_notes_bind.of_pure
    cases hr
    rw [List.append_nil]
    exact hm.await_awaited
  · next hdata =>
    rw [if_neg (by simpa using hdata)] at h
    obtain ⟨hr, rfl⟩ := h.of_pure
    cases hr
    exact ⟨rfl, rfl⟩

theorem settle_transcript {c : Command} {reply : Reply}
    (h : (c.settle config : Driver σ Reply).Runs (.ok reply) xs) :
    ∃ t : Transcript, t.Valid config c ∧ reply = t.reply c ∧
      xs = t.cmdEvents.map (.read .cmdEvent) ++ c.response.reads t.response ++ t.dataEvents.map (.read .dataEvent) := by
  obtain ⟨status, _, ys, rfl, hawait, h₁⟩ := h.bind_ok
  obtain ⟨events, report, rfl, hcommand, rfl⟩ := hawait.await_awaited
  obtain ⟨response, _, ys, rfl, hcollect, h₂⟩ := h₁.bind_ok
  obtain ⟨_, hr, rfl, hzero⟩ | ⟨_, ⟨⟩, -⟩ := hcollect.collect
  cases hr
  by_cases hok : Phase.verdict .command report = .ok
  · rw [if_pos hok] at h₂
    obtain ⟨status, ds, zs, rfl, hfinish, h₃⟩ := h₂.bind_ok
    obtain ⟨hr, rfl⟩ := h₃.of_pure
    cases hr
    have hdata := hfinish.finish_awaited
    split at hdata
    · next htransfer =>
      obtain ⟨dataEvents, dataReport, rfl, hawaited, rfl⟩ := hdata
      refine ⟨⟨events, report, response, dataEvents, dataReport⟩, ⟨hcommand, hzero, fun _ _ => hawaited, ?_⟩, ?_, ?_⟩
      · exact fun hno => absurd ⟨hok, htransfer⟩ hno
      · simp [Transcript.reply, Transcript.commandStatus, hok, htransfer]
      · rw [List.append_nil, List.append_assoc]
        rfl
    · next htransfer =>
      obtain ⟨rfl, rfl⟩ := hdata
      refine ⟨⟨events, report, response, [], none⟩, ⟨hcommand, hzero, ?_, fun _ => rfl⟩, ?_, ?_⟩
      · exact fun _ hsome => absurd hsome htransfer
      · simp [Transcript.reply, Transcript.commandStatus, hok, htransfer]
      · simp [Phase.register]
  · rw [if_neg hok] at h₂
    obtain ⟨hr, rfl⟩ := h₂.of_notes_bind.of_pure
    cases hr
    refine ⟨⟨events, report, response, [], none⟩, ⟨hcommand, hzero, ?_, fun _ => rfl⟩, ?_, ?_⟩
    · exact fun hcommandOk => absurd hcommandOk hok
    · simp [Transcript.reply, Transcript.commandStatus, hok]
    · simp [Phase.register]

theorem exists_transcript {c : Command} {reply : Reply} (h : (c.execute config : Driver σ Reply).Runs (.ok reply) xs) :
    ∃ t : Transcript, t.Valid config c ∧ xs = t.accesses c ∧ reply = t.reply c := by
  obtain ⟨_, ⟨⟩, -⟩ | ⟨ys, rfl, hsettle⟩ := h.of_execute
  obtain ⟨t, hvalid, rfl, rfl⟩ := hsettle.settle_transcript
  exact ⟨t, hvalid, rfl, rfl⟩

end Driver.Runs

end SecureDigital

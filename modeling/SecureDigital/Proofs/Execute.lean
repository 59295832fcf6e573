import SecureDigital.Proofs.Exchange
import SecureDigital.Proofs.Run

/-!
# The accesses of one command

`Executed config c r xs`: how a run of `c.execute` may go. If it returns, the command was prepared,
launched and answered to its end, and the reply is the one its `Exchange` tells (`Exchange.reply`). If
it halts, the command was not launched or has not ended. `Runs.execute` proves that these are the runs,
phase by phase (`Runs.await`, `Runs.collect`, `Runs.finish`).
-/

namespace SecureDigital

variable {σ : Type} [Device σ]

/-! ### The command word -/

namespace Command

theorem place_fields (index : BitVec 8) {transfer response : UInt32} (htransfer : transfer ∈ [0, 1, 2])
    (hresponse : response ∈ [0, 1, 2]) :
    let word := indexField.place (UInt8.ofBitVec index).toUInt32 ||| transferField.place transfer |||
      responseField.place response
    (indexField.read word).toUInt8 = UInt8.ofBitVec index &&& 63 ∧ transferField.read word = transfer ∧
      responseField.read word = response ∧
      word.toNat = 256 * (index.toNat % 64) + 32 * transfer.toNat + response.toNat := by
  simp only [List.mem_cons, List.not_mem_nil, or_false] at htransfer hresponse
  rcases htransfer with rfl | rfl | rfl <;> rcases hresponse with rfl | rfl | rfl <;>
    revert index <;> decide +kernel

theorem read_word (c : Command) :
    (indexField.read c.word).toUInt8 = c.index &&& 63 ∧ transferField.read c.word = c.transfer.code ∧
      responseField.read c.word = c.response.code ∧
      c.word.toNat = 256 * (c.index.toNat % 64) + 32 * c.transfer.code.toNat + c.response.code.toNat := by
  refine place_fields c.index.toBitVec ?_ ?_
  · rcases c.transfer with _ | _ | _ <;> simp [Transfer.code]
  · rcases c.response with _ | _ | _ <;> simp [ResponseKind.code]

/-- What is written to set up the DMA unit of the data phase. -/
def armed (c : Command) : List (ControlRegister × UInt32) :=
  match c.transfer with
  | .none => []
  | .read dest => [(.blockSize, c.blockSize), (.blockCount, c.blockCount), (.writerAddress, dest)]
  | .write src =>
    [(.blockSize, c.blockSize), (.blockCount, c.blockCount), (.readerAddress, src),
      (.readerLength, c.dataLength)]

theorem arm_eq (c : Command) : (c.arm : Driver σ Unit) = c.armed.forM fun w => Driver.write w.1 w.2 := by
  rcases ht : c.transfer with _ | dest | src <;> simp [arm, armed, ht]

theorem isQuiet_armed {c : Command} {a : Access} (h : a ∈ c.armed.map Access.ofWrite) : a.isQuiet := by
  obtain ⟨w, hw, rfl⟩ := List.mem_map.1 h
  unfold armed at hw
  split at hw <;> simp only [List.mem_cons, List.not_mem_nil, or_false] at hw
  · rcases hw with rfl | rfl | rfl <;> rfl
  · rcases hw with rfl | rfl | rfl | rfl <;> rfl

/-- Nothing is read while the command is prepared. -/
theorem values_prepared {c : Command} {register : StatusRegister} {xs : List Access}
    (h : xs <+: .write .argument c.argument :: c.armed.map Access.ofWrite) : Access.values register xs = [] := by
  refine Access.values_of_forall_write fun a ha => ?_
  rcases List.mem_cons.1 (h.subset ha) with rfl | ha
  · exact ⟨_, _, rfl⟩
  · obtain ⟨w, -, rfl⟩ := List.mem_map.1 ha
    exact ⟨_, _, rfl⟩

theorem values_launched {c : Command} {register : StatusRegister} {answers : List Access} :
    Access.values register
        (.write .argument c.argument :: c.armed.map Access.ofWrite ++ .write .command c.word :: answers) =
      Access.values register answers := by
  rw [Access.values_append, values_prepared List.prefix_rfl, List.nil_append, Access.values_cons_write]

/-- The exchange of the command with the given answers. -/
def exchange (c : Command) (answers : List Access) : Exchange := ⟨c.argument, c.word, answers⟩

theorem exchange_hasData (c : Command) (answers : List Access) : (c.exchange answers).hasData = c.hasData := by
  simp only [exchange, Exchange.hasData, c.read_word.2.1, hasData]
  cases c.transfer <;> rfl

theorem exchange_expectsResponse (c : Command) (answers : List Access) :
    (c.exchange answers).expectsResponse = decide (c.response ≠ .none) := by
  simp only [exchange, Exchange.expectsResponse, c.read_word.2.2.1]
  cases c.response <;> rfl

theorem exchange_index (c : Command) (answers : List Access) : (c.exchange answers).index = c.index &&& 63 :=
  c.read_word.1

end Command

/-- The accesses that read the response buffer. -/
def ResponseKind.reads (kind : ResponseKind) (response : Response) : List Access :=
  match kind with
  | .none => []
  | .short | .long =>
    [0, 1, 2, 3].map fun i => .read (.response i) (response.word i)

theorem ResponseKind.eq_of_mem_reads {kind : ResponseKind} {response : Response} {a : Access}
    (h : a ∈ kind.reads response) : ∃ i value, a = .read (.response i) value := by
  cases kind with
  | none => cases h
  | short | long =>
    obtain ⟨i, -, rfl⟩ := List.mem_map.1 h
    exact ⟨i, _, rfl⟩

/-! ### Phases -/

namespace Phase

theorem isReport_register (phase : Phase) (word : UInt32) : (Access.read phase.register word).isReport := by
  cases phase <;> rfl

theorem outcome_append {phase : Phase} {idle : List UInt32} {word : UInt32} {status : Status}
    (h : Status.ofEvent? phase (Event.ofWord word) = some status) :
    phase.outcome (idle ++ [word]) = status := by
  simp [outcome, h]

theorem outcome_of_idle {phase : Phase} {idle : List UInt32}
    (h : ∀ w ∈ idle, Status.ofEvent? phase (Event.ofWord w) = none) : phase.outcome idle = .timeout := by
  unfold outcome
  rcases hlast : idle.getLast? with _ | word
  · rfl
  · simp [h word (List.mem_of_getLast? hlast)]

theorem over_append {phase : Phase} {limit : PollLimit} {idle : List UInt32} {word : UInt32} {status : Status}
    (h : Status.ofEvent? phase (Event.ofWord word) = some status) : Over limit (idle ++ [word]) := by
  refine .inl ⟨word, List.getLast?_concat, ?_⟩
  rw [← Bool.not_eq_false]
  intro hdone
  have hnone : Status.ofEvent? phase (Event.ofWord word) = none := Status.ofEvent?_eq_none_iff.2 hdone
  rw [h] at hnone
  cases hnone

theorem not_over_of_idle {phase : Phase} {limit : PollLimit} {idle : List UInt32}
    (h : ∀ w ∈ idle, Status.ofEvent? phase (Event.ofWord w) = none) (hlimit : limit.Allows idle.length) :
    ¬ Over limit idle := by
  rintro (⟨word, hlast, hdone⟩ | ⟨n, hn, hlen⟩)
  · rw [Status.ofEvent?_eq_none_iff.1 (h word (List.mem_of_getLast? hlast))] at hdone
    cases hdone
  · exact Nat.ne_of_lt (hlimit n hn) hlen

end Phase

namespace Driver.Runs

variable {config : Config} {xs : List Access}

/-- The wait for a phase reads its event until it is over, and returns what the events say. -/
theorem await {phase : Phase} {r : Except Halt Status}
    (h : (phase.await config : Driver σ Status).Runs r xs) :
    ∃ events : List UInt32, xs = events.map (.read phase.register) ∧
      ((r = .ok (phase.outcome events) ∧ Phase.Over (phase.limit config) events) ∨
        ∃ e, r = .error e ∧ ¬ Phase.Over (phase.limit config) events) := by
  rcases h.bind with ⟨e, rfl, hm⟩ | ⟨result, ys, zs, rfl, hm, hf⟩
  · rcases hm.pollRegister with _ | _ | ⟨hidle, hlimit⟩
    exact ⟨_, rfl, .inr ⟨e, rfl, Phase.not_over_of_idle hidle hlimit⟩⟩
  · have hpolled := hm.pollRegister
    rcases hresult : result with _ | status <;> rw [hresult] at hf hpolled
    · obtain ⟨rfl, rfl⟩ := hf.of_notes_bind.of_pure
      rcases hpolled with _ | ⟨hidle, hlimit, hlength⟩
      refine ⟨_, List.append_nil _, .inl ⟨?_, .inr ⟨_, hlimit, hlength⟩⟩⟩
      rw [Phase.outcome_of_idle hidle]
    · obtain ⟨rfl, rfl⟩ := hf.of_pure
      rcases hpolled with ⟨hidle, hlimit, hlast⟩
      refine ⟨_, List.append_nil _, .inl ⟨?_, Phase.over_append hlast⟩⟩
      rw [Phase.outcome_append hlast]

/-- The response is read whole, or the run halts before its last word. -/
theorem collect {kind : ResponseKind} {r : Except Halt Response}
    (h : (Command.collect kind : Driver σ Response).Runs r xs) :
    (∃ response, r = .ok response ∧ xs = kind.reads response ∧ (kind = .none → response = .zero)) ∨
      ∃ e, r = .error e ∧ kind ≠ .none ∧
        ∀ a ∈ xs, ∃ i value, i ≠ 3 ∧ a = .read (.response i) value := by
  unfold Command.collect at h
  split at h
  · obtain ⟨rfl, rfl⟩ := h.of_pure
    exact .inl ⟨_, rfl, rfl, fun _ => rfl⟩
  all_goals
    rcases h.of_read_bind with ⟨rfl, rfl⟩ | ⟨w₀, _, rfl, h₁⟩
    · exact .inr ⟨_, rfl, nofun, by simp⟩
    rcases h₁.of_read_bind with ⟨rfl, rfl⟩ | ⟨w₁, _, rfl, h₂⟩
    · exact .inr ⟨_, rfl, nofun, by simp⟩
    rcases h₂.of_read_bind with ⟨rfl, rfl⟩ | ⟨w₂, _, rfl, h₃⟩
    · exact .inr ⟨_, rfl, nofun, by simp⟩
    rcases h₃.of_read_bind with ⟨rfl, rfl⟩ | ⟨w₃, _, rfl, h₄⟩
    · exact .inr ⟨_, rfl, nofun, by simp⟩
    obtain ⟨rfl, rfl⟩ := h₄.of_pure
    exact .inl ⟨#v[w₀, w₁, w₂, w₃], rfl, rfl, nofun⟩

theorem arm {c : Command} {r : Except Halt Unit} (h : (c.arm : Driver σ Unit).Runs r xs) :
    (r = .ok () ∧ xs = c.armed.map Access.ofWrite) ∨ ∃ e, r = .error e ∧ xs <+: c.armed.map Access.ofWrite := by
  rw [Command.arm_eq] at h
  exact h.of_writes

theorem finish {c : Command} {r : Except Halt Status} (h : (c.finish config : Driver σ Status).Runs r xs) :
    ∃ events : List UInt32, xs = events.map (.read .dataEvent) ∧
      ((r = .ok (if c.hasData then Phase.outcome .data events else .ok) ∧
          (c.hasData → Phase.Over config.dataPoll events)) ∨
        ∃ e, r = .error e ∧ c.hasData ∧ ¬ Phase.Over config.dataPoll events) := by
  unfold Command.finish at h
  by_cases hdata : c.hasData
  · rw [if_pos hdata] at h
    rcases h.bind with ⟨e, rfl, hm⟩ | ⟨status, ys, zs, rfl, hm, hf⟩
    · obtain ⟨events, rfl, ⟨⟨⟩, -⟩ | ⟨_, -, hover⟩⟩ := hm.await
      exact ⟨events, rfl, .inr ⟨e, rfl, hdata, hover⟩⟩
    · obtain ⟨events, rfl, ⟨⟨⟩, hover⟩ | ⟨_, ⟨⟩, -⟩⟩ := hm.await
      obtain ⟨rfl, rfl⟩ := hf.of_notes_bind.of_pure
      exact ⟨events, List.append_nil _, .inl ⟨by rw [if_pos hdata], fun _ => hover⟩⟩
  · rw [if_neg hdata] at h
    obtain ⟨rfl, rfl⟩ := h.of_pure
    exact ⟨[], rfl, .inl ⟨by rw [if_neg hdata], fun h => absurd h hdata⟩⟩

end Driver.Runs

/-! ### The whole command -/

/-- How a run of `c.execute` may go. -/
inductive Executed (config : Config) (c : Command) : Except Halt Reply → List Access → Prop
  | returned {answers : List Access} (hreports : ∀ a ∈ answers, a.isReport)
      (hended : (c.exchange answers).Ended config) :
      Executed config c (.ok (c.exchange answers).reply)
        (.write .argument c.argument :: c.armed.map Access.ofWrite ++ .write .command c.word :: answers)
  | unlaunched {e : Halt} {xs : List Access}
      (hxs : xs <+: .write .argument c.argument :: c.armed.map Access.ofWrite) :
      Executed config c (.error e) xs
  | broken {e : Halt} {answers : List Access} (hreports : ∀ a ∈ answers, a.isReport)
      (hended : e = .refused ∨ ¬ (c.exchange answers).Ended config) :
      Executed config c (.error e)
        (.write .argument c.argument :: c.armed.map Access.ofWrite ++ .write .command c.word :: answers)

/-- Whether the access prepares, launches or answers a command. -/
def Access.servesCommand : Access → Bool
  | .write .argument _ | .write .command _ | .write .blockSize _ | .write .blockCount _ | .write .readerAddress _
  | .write .readerLength _ | .write .writerAddress _ => true
  | a => a.isReport

theorem Access.servesCommand_of_isReport {a : Access} (h : a.isReport) : a.servesCommand := by
  cases a <;> first | exact h | cases h

/-- A command has no part in the wait for the DMA reader. -/
theorem Access.values_readerDone_of_servesCommand {xs : List Access} (h : ∀ a ∈ xs, a.servesCommand) :
    values .readerDone xs = [] := by
  refine List.filterMap_eq_nil_iff.2 fun a ha => ?_
  have hserves := h a ha
  cases a with
  | read register value => cases register <;> first | rfl | cases hserves
  | _ => rfl

theorem Command.servesCommand_launched {c : Command} {answers : List Access} (h : ∀ a ∈ answers, a.isReport) :
    ∀ a ∈ .write .argument c.argument :: c.armed.map Access.ofWrite ++ .write .command c.word :: answers,
      a.servesCommand := by
  have harmed : ∀ a ∈ c.armed.map Access.ofWrite, a.servesCommand := by
    unfold armed
    split <;> simp [Access.ofWrite, Access.servesCommand]
  intro a ha
  simp only [List.cons_append, List.mem_cons, List.mem_append] at ha
  rcases ha with rfl | ha | rfl | ha
  · rfl
  · exact harmed a ha
  · rfl
  · exact Access.servesCommand_of_isReport (h a ha)

theorem Executed.servesCommand {config : Config} {c : Command} {r : Except Halt Reply} {xs : List Access}
    (h : Executed config c r xs) : ∀ a ∈ xs, a.servesCommand := by
  intro a ha
  cases h with
  | returned hreports => exact Command.servesCommand_launched hreports a ha
  | broken hreports => exact Command.servesCommand_launched hreports a ha
  | unlaunched hxs =>
    exact Command.servesCommand_launched (List.forall_mem_nil _) a (List.mem_append_left _ (hxs.subset ha))

/-- The answers of a command with the given events and response. -/
def Command.answers (c : Command) (cmdEvents : List UInt32) (response : Response)
    (dataEvents : List UInt32) : List Access :=
  cmdEvents.map (.read .cmdEvent) ++ c.response.reads response ++ dataEvents.map (.read .dataEvent)

namespace Command

variable {config : Config} {c : Command} {cmdEvents dataEvents : List UInt32} {response : Response}

theorem values_cmdEvent : (c.exchange (c.answers cmdEvents response dataEvents)).values .cmdEvent = cmdEvents := by
  unfold Exchange.values exchange answers
  cases c.response <;> simp [ResponseKind.reads]

theorem values_dataEvent :
    (c.exchange (c.answers cmdEvents response dataEvents)).values .dataEvent = dataEvents := by
  unfold Exchange.values exchange answers
  cases c.response <;> simp [ResponseKind.reads]

theorem exchange_response (h : c.response = .none → response = .zero) :
    (c.exchange (c.answers cmdEvents response dataEvents)).response = response := by
  unfold Exchange.response Exchange.responseWord Exchange.values exchange answers
  apply Vector.ext
  intro i hi
  rcases hc : c.response with _ | _ | _
  · rw [h hc]
    match i, hi with
    | 0, _ | 1, _ | 2, _ | 3, _ => simp [ResponseKind.reads, Response.zero]
  all_goals
    match i, hi with
    | 0, _ | 1, _ | 2, _ | 3, _ => simp [ResponseKind.reads, Response.word]

theorem exchange_reply (h : c.response = .none → response = .zero) :
    (c.exchange (c.answers cmdEvents response dataEvents)).reply =
      ⟨if Phase.outcome .command cmdEvents = .ok ∧ c.hasData then Phase.outcome .data dataEvents
        else Phase.outcome .command cmdEvents, Phase.outcome .command cmdEvents, response⟩ := by
  rw [Exchange.reply, exchange_response h, Exchange.status, Exchange.commandStatus, values_cmdEvent,
    values_dataEvent, exchange_hasData]

theorem exchange_ended_iff :
    (c.exchange (c.answers cmdEvents response dataEvents)).Ended config ↔
      Phase.Over config.cmdPoll cmdEvents ∧
        (Phase.outcome .command cmdEvents = .ok → c.hasData → Phase.Over config.dataPoll dataEvents) := by
  constructor
  · intro h
    have hdata := h.data
    rw [Exchange.commandStatus, values_cmdEvent, values_dataEvent, exchange_hasData] at hdata
    exact ⟨by simpa only [values_cmdEvent] using h.command, hdata⟩
  · rintro ⟨hcommand, hdata⟩
    refine ⟨by rwa [values_cmdEvent], ?_, ?_⟩
    · rw [exchange_expectsResponse]
      unfold Exchange.values exchange answers
      cases c.response <;> simp [ResponseKind.reads]
    · rwa [Exchange.commandStatus, values_cmdEvent, values_dataEvent, exchange_hasData]

/-- A command is not over while the last word of its response has not been read. -/
theorem unended_of_reads {phase : Phase} {reads : List Access} (hkind : c.response ≠ .none)
    (hreads : ∀ a ∈ reads, ∃ i value, i ≠ 3 ∧ a = .read (.response i) value) :
    (∀ a ∈ cmdEvents.map (.read phase.register) ++ reads, a.isReport) ∧
      ¬ (c.exchange (cmdEvents.map (.read phase.register) ++ reads)).Ended config := by
  have hvalues : Access.values (.response 3) reads = [] := by
    refine List.filterMap_eq_nil_iff.2 fun a ha => ?_
    obtain ⟨i, value, hi, rfl⟩ := hreads a ha
    simp [hi]
  refine ⟨fun a ha => ?_, fun hended => hended.response ?_ ?_⟩
  · rcases List.mem_append.1 ha with ha | ha
    · obtain ⟨w, -, rfl⟩ := List.mem_map.1 ha
      exact phase.isReport_register w
    · obtain ⟨i, value, -, rfl⟩ := hreads a ha
      rfl
  · rw [exchange_expectsResponse]
    exact decide_eq_true hkind
  · rw [Exchange.values, exchange, Access.values_append, hvalues, Access.values_map_read]
    cases phase <;> rfl

theorem isReport_answers {a : Access} (h : a ∈ c.answers cmdEvents response dataEvents) : a.isReport := by
  simp only [answers, List.mem_append, List.mem_map] at h
  rcases h with (⟨w, -, rfl⟩ | h) | ⟨w, -, rfl⟩
  · rfl
  · obtain ⟨i, value, rfl⟩ := ResponseKind.eq_of_mem_reads h
    rfl
  · rfl

end Command

/-- What is left of a command once it has been launched. -/
def Command.settle (config : Config) (c : Command) : Driver σ Reply := do
  let commandStatus ← Phase.await config .command
  let response ← Command.collect c.response
  if commandStatus = .ok then
    let status ← c.finish config
    return { status, commandStatus, response }
  else
    Driver.note (.commandFailed c.index commandStatus)
    return { status := commandStatus, commandStatus, response }

theorem Command.execute_eq (config : Config) (c : Command) :
    (c.execute config : Driver σ Reply) =
      (do
        Driver.note (.issued c.index c.argument)
        Driver.write .argument c.argument
        c.arm
        Driver.write .command c.word
        c.settle config) :=
  rfl

namespace Driver.Runs

variable {config : Config} {c : Command} {r : Except Halt Reply} {xs : List Access}

/-- A command that was launched ends with the reply that its answers tell, or halts before its end. -/
theorem settle (h : (c.settle config : Driver σ Reply).Runs r xs) :
    (∀ a ∈ xs, a.isReport) ∧ ((r = .ok (c.exchange xs).reply ∧ (c.exchange xs).Ended config) ∨
      ∃ e, r = .error e ∧ ¬ (c.exchange xs).Ended config) := by
  rcases h.bind with ⟨e, rfl, hawait⟩ | ⟨status, _, ys, rfl, hawait, h₁⟩
  · obtain ⟨events, rfl, ⟨⟨⟩, -⟩ | ⟨_, -, hover⟩⟩ := hawait.await
    refine ⟨by simp [Phase.isReport_register], .inr ⟨e, rfl, fun hended => hover ?_⟩⟩
    simpa [Exchange.values, Command.exchange, Phase.register, Phase.limit] using hended.command
  obtain ⟨events, rfl, ⟨⟨⟩, hover⟩ | ⟨_, ⟨⟩, -⟩⟩ := hawait.await
  rcases h₁.bind with ⟨e, rfl, hcollect⟩ | ⟨response, _, ys, rfl, hcollect, h₂⟩
  · obtain ⟨_, ⟨⟩, -⟩ | ⟨_, -, hkind, hreads⟩ := hcollect.collect
    obtain ⟨hreports, hended⟩ := Command.unended_of_reads hkind hreads
    exact ⟨hreports, .inr ⟨e, rfl, hended⟩⟩
  obtain ⟨_, ⟨⟩, rfl, hzero⟩ | ⟨_, ⟨⟩, -⟩ := hcollect.collect
  rw [← List.append_assoc]
  by_cases hok : Phase.outcome .command events = .ok
  · rw [if_pos hok] at h₂
    rcases h₂.bind with ⟨e, rfl, hfinish⟩ | ⟨status, _, ys, rfl, hfinish, h₃⟩
    · obtain ⟨dataEvents, rfl, ⟨⟨⟩, -⟩ | ⟨_, -, hdata, hnot⟩⟩ := hfinish.finish
      refine ⟨fun a => Command.isReport_answers, .inr ⟨e, rfl, fun hended => hnot ?_⟩⟩
      exact (Command.exchange_ended_iff.1 hended).2 hok hdata
    · obtain ⟨dataEvents, rfl, ⟨⟨⟩, hdata⟩ | ⟨_, ⟨⟩, -⟩⟩ := hfinish.finish
      obtain ⟨rfl, rfl⟩ := h₃.of_pure
      rw [List.append_nil]
      refine ⟨fun a => Command.isReport_answers, .inl ⟨congrArg Except.ok ?_, ?_⟩⟩
      · show _ = (c.exchange (c.answers events response dataEvents)).reply
        rw [Command.exchange_reply hzero, hok]
        by_cases hc : c.hasData <;> simp [hc]
      · exact Command.exchange_ended_iff.2 ⟨hover, fun _ => hdata⟩
  · rw [if_neg hok] at h₂
    obtain ⟨rfl, rfl⟩ := h₂.of_notes_bind.of_pure
    have hanswers : events.map (Access.read Phase.command.register) ++ c.response.reads response ++ [] =
        c.answers events response [] := rfl
    rw [hanswers]
    refine ⟨fun a => Command.isReport_answers, .inl ⟨congrArg Except.ok ?_, ?_⟩⟩
    · rw [Command.exchange_reply hzero, if_neg fun h => hok h.1]
    · exact Command.exchange_ended_iff.2 ⟨hover, fun h => absurd h hok⟩

/-- A run that halts before the command is launched has prepared it in part; any other has launched it. -/
theorem of_execute (h : (c.execute config : Driver σ Reply).Runs r xs) :
    (∃ e, r = .error e ∧ (xs <+: .write .argument c.argument :: c.armed.map Access.ofWrite ∨ e = .refused ∧
        xs = .write .argument c.argument :: c.armed.map Access.ofWrite ++ [.write .command c.word])) ∨
      ∃ ys, xs = .write .argument c.argument :: c.armed.map Access.ofWrite ++ .write .command c.word :: ys ∧
        (c.settle config : Driver σ Reply).Runs r ys := by
  rw [Command.execute_eq] at h
  rcases h.of_notes_bind.of_write_bind with ⟨e, rfl, -, hxs⟩ | ⟨xs, rfl, h₁⟩
  · exact .inl ⟨e, rfl, .inl (hxs.trans (List.prefix_append [_] _))⟩
  rcases h₁.bind with ⟨e, rfl, harm⟩ | ⟨_, _, ys, rfl, harm, h₂⟩
  · obtain ⟨⟨⟩, -⟩ | ⟨_, -, hxs⟩ := harm.arm
    exact .inl ⟨e, rfl, .inl ((List.prefix_cons_inj _).2 hxs)⟩
  obtain ⟨-, rfl⟩ | ⟨_, ⟨⟩, -⟩ := harm.arm
  rw [← List.cons_append]
  rcases h₂.of_write_bind with ⟨e, rfl, hcause, hys⟩ | ⟨ys, rfl, h₃⟩
  · refine .inl ⟨e, rfl, ?_⟩
    rcases List.prefix_cons_iff.1 hys with rfl | ⟨zs, rfl, hzs⟩
    · exact .inl (by simp only [List.append_nil, List.prefix_rfl])
    · obtain rfl := List.prefix_nil.1 hzs
      exact .inr ⟨hcause.resolve_right nofun, rfl⟩
  · exact .inr ⟨ys, rfl, h₃⟩

theorem execute (h : (c.execute config : Driver σ Reply).Runs r xs) : Executed config c r xs := by
  rcases h.of_execute with ⟨e, rfl, hxs | ⟨rfl, rfl⟩⟩ | ⟨ys, rfl, hsettle⟩
  · exact .unlaunched hxs
  · exact .broken nofun (.inl rfl)
  · obtain ⟨hreports, ⟨rfl, hended⟩ | ⟨e, rfl, hended⟩⟩ := hsettle.settle
    · exact .returned hreports hended
    · exact .broken hreports (.inr hended)

end Driver.Runs

end SecureDigital

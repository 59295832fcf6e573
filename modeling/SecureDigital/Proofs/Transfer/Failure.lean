import SecureDigital.Card.SelfTest
import SecureDigital.Proofs.BringUp.Script
import SecureDigital.Proofs.Transfer.Calls
import SecureDigital.Slot

/-!
# What the error of a failed block transfer tells

A transfer comes back with one status, that of its command phase, of its data phase or of the wait for the DMA reader
(`TransferEnd`), and the callers turn that status into the error of a data phase, whichever phase it came from. So the
error is that of the failing phase if the command phase passed (`error_of_failed_transfer`), and a command that timed out
is told as a data timeout (`command_timeout_told_as_data`).
-/

namespace SecureDigital

/-- How a block transfer that has made the exchange `e` ends, by its status. -/
inductive TransferEnd (config : Config) (e : Exchange) (xs : List Access) : Status → Prop
  | command (hfailed : e.commandStatus ≠ .ok) : TransferEnd config e xs e.commandStatus
  | data (hpassed : e.commandStatus = .ok) : TransferEnd config e xs (Phase.outcome .data (e.values .dataEvent))
  /-- A write has given up on the DMA reader. -/
  | latch {n : UInt32} (hpassed : e.commandStatus = .ok) (hindex : e.index = 24) (hlimit : config.dmaPoll = .attempts n)
      (hidle : List.replicate n.toNat (.read .readerDone 0) <:+ xs) : TransferEnd config e xs .timeout

theorem TransferEnd.prepend {config : Config} {e : Exchange} {xs : List Access} {status : Status}
    (h : TransferEnd config e xs status) (ys : List Access) : TransferEnd config e (ys ++ xs) status := by
  cases h with
  | command hfailed => exact .command hfailed
  | data hpassed => exact .data hpassed
  | latch hpassed hindex hlimit hidle => exact .latch hpassed hindex hlimit (hidle.trans (List.suffix_append _ _))

/-- The last exchange of `xs` is a transfer that has come back with `status`. -/
def EndsTransfer (config : Config) (xs : List Access) (status : Status) : Prop :=
  ∃ es e, Adds xs (es ++ [e]) ∧ (e.index = 17 ∨ e.index = 24) ∧ e.Ended config ∧ TransferEnd config e xs status

theorem EndsTransfer.prepend {config : Config} {xs ys : List Access} {status : Status} {fs : List Exchange}
    (h : EndsTransfer config xs status) (hys : Adds ys fs) : EndsTransfer config (ys ++ xs) status := by
  obtain ⟨es, e, hadds, hindex, hended, hstatus⟩ := h
  exact ⟨fs ++ es, e, List.append_assoc fs es [e] ▸ hys.append hadds, hindex, hended, hstatus.prepend ys⟩

theorem TransferEnd.of_status {config : Config} {e : Exchange} (hdata : e.hasData) (xs : List Access) :
    TransferEnd config e xs e.status := by
  unfold Exchange.status
  by_cases hpassed : e.commandStatus = .ok
  · rw [if_pos ⟨hpassed, hdata⟩]
    exact .data hpassed
  · rw [if_neg fun h => hpassed h.1]
    exact .command hpassed

theorem Executed.exists_exchange {config : Config} {c : Command} {reply : Reply} {xs : List Access}
    (hindex : c.index < 64) (h : Executed config c (.ok reply) xs) :
    ∃ e : Exchange, Adds xs [e] ∧ e.index = c.index ∧ e.hasData = c.hasData ∧ e.Ended config ∧ reply = e.reply := by
  cases h with
  | @returned answers hreports hended =>
    exact ⟨_, adds_launched hreports, Command.exchange_index_of_lt hindex _, c.exchange_hasData _, hended, rfl⟩

namespace Driver.Runs

variable {σ : Type} [Device σ] {card : Card} {xs : List Access}

/-! ### Single transfers -/

section Transfers

variable {status : Status}

theorem readBlock_ends {block dest : UInt32} (h : (card.readBlock block dest : Driver σ Status).Runs (.ok status) xs) :
    EndsTransfer card.config xs status := by
  obtain ⟨_ | reply, hrun, hr⟩ := h.readBlock
  · cases hr
  cases hr
  obtain ⟨e, hadds, hindex, hdata, hended, rfl⟩ := hrun.exists_exchange (Opcode.index_lt .readSingleBlock)
  exact ⟨[], e, hadds, .inl hindex, hended, .of_status hdata xs⟩

theorem writeBlock_ends {block src : UInt32} (h : (card.writeBlock block src : Driver σ Status).Runs (.ok status) xs) :
    EndsTransfer card.config xs status := by
  generalize hr : (Except.ok status : Except Halt Status) = r at h
  cases h.writeBlock with
  | unfinished => cases hr
  | failed hrun hfailed =>
    cases hr
    obtain ⟨e, hadds, hindex, -, hended, rfl⟩ := hrun.exists_exchange (Opcode.index_lt .writeSingleBlock)
    exact ⟨[], e, hadds, .inr hindex, hended, .command hfailed⟩
  | @awaited reply r xs ys hrun hpassed hlatch =>
    obtain ⟨e, hadds, hindex, hdata, hended, rfl⟩ := hrun.exists_exchange (Opcode.index_lt .writeSingleBlock)
    have hadds' : Adds (xs ++ ys) ([] ++ [e]) := hadds.append (.of_isQuiet (Card.isQuiet_latch hlatch))
    refine ⟨[], e, hadds', .inr hindex, hended, ?_⟩
    cases hlatch with
    | hit =>
      cases hr
      exact .of_status hdata _
    | @spent idle n hidle hlimit hlength =>
      cases hr
      have hzero : idle = List.replicate n.toNat 0 := hlength ▸ Card.eq_replicate_of_not_drained hidle
      rw [hzero, List.map_replicate]
      exact .latch hpassed hindex hlimit (List.suffix_append _ _)
    | halted => cases hr

end Transfers

end Driver.Runs

/-! ### The calls that tell an error -/

/-- The phase that the error names. -/
def Error.phase? : Error → Option Phase
  | commandTimeout | commandCrcError => some .command
  | dataTimeout | dataCrcError | dataWriteError => some .data
  | _ => none

theorem Status.phase?_of_check {status : Status} {cause : Error} (h : status.check .data = .error cause) :
    cause.phase? = some .data := by
  cases status <;> cases h <;> rfl

/-- The calls that move blocks and tell of a failure by an error. -/
inductive BlockCall
  | selfTest (card : Card) (block src dst : UInt32)
  | readKept (slot : Slot) (block dest : UInt32)
  | writeKept (slot : Slot) (block src : UInt32)

namespace BlockCall

/-- The card that the call works on; a slot may have none. -/
def card? : BlockCall → Option Card
  | selfTest card .. => some card
  | readKept slot .. | writeKept slot .. => slot.card

def perform {σ : Type} [Device σ] : BlockCall → Driver σ (Except Error Unit)
  | selfTest card block src dst => (card.selfTest block src dst).run
  | readKept slot block dest => slot.readBlock block dest
  | writeKept slot block src => slot.writeBlock block src

end BlockCall

theorem Slot.use_eq {σ α : Type} (slot : Slot) (f : Card → Driver σ α) :
    slot.use f = match slot.card with
      | none => pure (.error .notInitialized)
      | some card => Except.ok <$> f card := by
  unfold Slot.use Slot.withCard
  cases slot.card <;> simp

namespace Driver.Runs

variable {σ : Type} {xs : List Access} {cause : Error}

theorem checkData {transfer : Driver σ Status} {r : Except Error Unit}
    (h : (Card.checkData transfer : Fallible σ Unit).run.Runs (.ok r) xs) :
    ∃ status, transfer.Runs (.ok status) xs ∧ r = status.check .data := by
  rcases h.bindLift with ⟨e, ⟨⟩, -⟩ | ⟨status, ys, zs, rfl, htransfer, hcheck⟩
  obtain ⟨hr, rfl⟩ := hcheck.of_pure
  rw [List.append_nil]
  exact ⟨status, htransfer, Except.ok.inj hr⟩

/-- A call on the kept card that fails has failed in its transfer, if there is a card. -/
theorem use_error {slot : Slot} {transfer : Card → Driver σ Status}
    (h : ((fun r => r.bind (·.check .data)) <$> slot.use transfer : Driver σ (Except Error Unit)).Runs
      (.ok (.error cause)) xs) (hcause : cause ≠ .notInitialized) :
    ∃ card status, slot.card = some card ∧ (transfer card).Runs (.ok status) xs ∧ status.check .data = .error cause := by
  obtain ⟨r, huse, hr⟩ := h.map
  rw [Slot.use_eq] at huse
  cases hcard : slot.card with
  | none =>
    rw [hcard] at huse
    obtain ⟨rfl, -⟩ := huse.of_pure
    cases hr
    exact absurd rfl hcause
  | some card =>
    rw [hcard] at huse
    obtain ⟨r', htransfer, rfl⟩ := huse.map
    cases r' with
    | error e => cases hr
    | ok status => exact ⟨card, status, rfl, htransfer, (Except.ok.inj hr).symm⟩

variable [Device σ]

theorem selfTest_error {card : Card} {block src dst : UInt32}
    (h : (card.selfTest block src dst : Fallible σ Unit).run.Runs (.ok (.error cause)) xs)
    (hcause : ∀ n, cause ≠ .selfTestMismatch n) :
    ∃ status, EndsTransfer card.config xs status ∧ status.check .data = .error cause := by
  have hfill {address : UInt32} {bytes : Array UInt8} {ys : List Access}
      (hrun : (Driver.writeMemory address bytes : Driver σ Unit).Runs (.ok ()) ys) : Adds ys [] :=
    Driver.Confined.adds_nil (.writeMemory rfl) hrun
  rcases h.of_lift_notes_bind.bindLift with ⟨_, ⟨⟩, -⟩ | ⟨_, us, ys, rfl, hsource, h₁⟩
  rcases h₁.bindFallible with ⟨_, ⟨⟩, -⟩ | ⟨e, he, hwrite⟩ | ⟨_, vs, ys, rfl, hwrite, h₂⟩
  · cases he
    obtain ⟨status, htransfer, hstatus⟩ := hwrite.checkData
    exact ⟨status, htransfer.writeBlock_ends.prepend (hfill hsource), hstatus.symm⟩
  rcases h₂.bindLift with ⟨_, ⟨⟩, -⟩ | ⟨_, ws, ys, rfl, hclear, h₃⟩
  rcases h₃.bindFallible with ⟨_, ⟨⟩, -⟩ | ⟨e, he, hread⟩ | ⟨_, zs, ys, rfl, hread, h₄⟩
  · cases he
    obtain ⟨_, hwritten, -⟩ := hwrite.checkData
    obtain ⟨es, e, hadds, -⟩ := hwritten.writeBlock_ends
    obtain ⟨status, htransfer, hstatus⟩ := hread.checkData
    exact ⟨status, ((htransfer.readBlock_ends.prepend (hfill hclear)).prepend hadds).prepend (hfill hsource),
      hstatus.symm⟩
  -- Once the block is back, the only error left is that of the comparison.
  rcases h₄.bindLift with ⟨_, ⟨⟩, -⟩ | ⟨readBack, _, ys, rfl, -, h₅⟩
  generalize Card.wrongWords readBack = wrong at h₅
  have h₆ := h₅.of_lift_notes_bind
  by_cases hempty : wrong.isEmpty
  · rw [if_pos hempty] at h₆
    obtain ⟨_ | _, -, hr⟩ := h₆.of_lift
    · cases hr
    · cases hr
  · rw [if_neg hempty] at h₆
    obtain ⟨hr, -⟩ := h₆.of_lift_notes_bind.of_pure
    cases hr
    exact absurd rfl (hcause _)

end Driver.Runs

/-- The error of a transfer names the data phase. That is the phase that failed, if the command phase passed; else the
error is that of a data phase that ended as the command phase did. -/
theorem error_of_failed_transfer {σ : Type} [Device σ] {call : BlockCall} {cause : Error} {xs : List Access}
    (h : (call.perform : Driver σ (Except Error Unit)).Runs (.ok (.error cause)) xs) (hfilled : cause ≠ .notInitialized)
    (htransfer : ∀ n, cause ≠ .selfTestMismatch n) :
    ∃ card e status, call.card? = some card ∧ (exchanges xs).getLast? = some e ∧ (e.index = 17 ∨ e.index = 24) ∧
      e.Ended card.config ∧ TransferEnd card.config e xs status ∧ status.check .data = .error cause ∧
      cause.phase? = some .data := by
  have hends : ∃ card status, call.card? = some card ∧ EndsTransfer card.config xs status ∧
      status.check .data = .error cause := by
    cases call with
    | selfTest card block src dst =>
      obtain ⟨status, hstatus⟩ := h.selfTest_error htransfer
      exact ⟨card, status, rfl, hstatus⟩
    | readKept slot block dest =>
      obtain ⟨card, status, hcard, hrun, hstatus⟩ := Driver.Runs.use_error h.of_notes_bind hfilled
      exact ⟨card, status, hcard, hrun.readBlock_ends, hstatus⟩
    | writeKept slot block src =>
      obtain ⟨card, status, hcard, hrun, hstatus⟩ := Driver.Runs.use_error h.of_notes_bind hfilled
      exact ⟨card, status, hcard, hrun.writeBlock_ends, hstatus⟩
  obtain ⟨card, status, hcard, ⟨es, e, hadds, hindex, hended, hend⟩, hstatus⟩ := hends
  refine ⟨card, e, status, hcard, ?_, hindex, hended, hend, hstatus, Status.phase?_of_check hstatus⟩
  rw [hadds.exchanges_eq, List.getLast?_concat]

/-- A read whose data phase fails the CRC check. -/
theorem error_of_failed_transfer_corrupt :
    let card := Card.fresh {}
    let o := (BlockCall.readKept ⟨some card⟩ 3 0x1000).perform.run ({ otherwise := { dataEvents := [9] } } : Scripted) 100
    ∃ e status, o.result = .ok (.error .dataCrcError) ∧ (exchanges o.accesses).getLast? = some e ∧
      TransferEnd card.config e o.accesses status ∧ status.check .data = .error .dataCrcError := by
  intro card o
  have hfails : Driver.fails (ExceptT.mk (BlockCall.readKept ⟨some card⟩ 3 0x1000).perform)
      ({ otherwise := { dataEvents := [9] } } : Scripted) 100 .dataCrcError := by decide +kernel
  have hresult : o.result = .ok (.error .dataCrcError) := Driver.eq_of_fails hfails
  obtain ⟨card', e, status, hcard, hlast, -, -, hend, hstatus, -⟩ :=
    error_of_failed_transfer ⟨_, _, hresult, rfl⟩ (by decide) (by simp)
  obtain rfl : card = card' := Option.some.inj hcard
  exact ⟨e, status, hresult, hlast, hend, hstatus⟩

/-- The write of the test pattern times out in its command phase; the error is that of a data phase. -/
theorem command_timeout_told_as_data :
    let o := (Card.bringUp {}).run.run (Scripted.willingBut (List.replicate 12 1 ++ [5])) 3000
    ∃ card e, o.result = .ok (.ok card) ∧
      let o' := (card.selfTest 0 0x1000 0x1400).run.run o.device 100
      o'.result = .ok (.error .dataTimeout) ∧ (exchanges o'.accesses).getLast? = some e ∧ e.index = 24 ∧
        e.commandStatus = .timeout ∧ e.commandStatus.check .command = .error .commandTimeout := by
  intro o
  have hreturns : Driver.returns (Card.bringUp {}) (Scripted.willingBut (List.replicate 12 1 ++ [5])) 3000
      fun card =>
        let o' := (card.selfTest 0 0x1000 0x1400).run.run o.device 100
        Driver.fails (card.selfTest 0 0x1000 0x1400) o.device 100 .dataTimeout ∧
          (exchanges o'.accesses).getLast?.any fun e => e.index = 24 ∧ e.commandStatus = .timeout := by decide +kernel
  obtain ⟨card, hcard, hresult⟩ := Driver.exists_of_returns hreturns
  obtain ⟨hfails, hlast⟩ := of_decide_eq_true hcard
  obtain ⟨e, he, hstatus⟩ := (Option.any_eq_true _ _).1 hlast
  obtain ⟨hindex, htimeout⟩ := of_decide_eq_true hstatus
  exact ⟨card, e, hresult, Driver.eq_of_fails hfails, he, hindex, htimeout, by rw [htimeout]; rfl⟩

end SecureDigital

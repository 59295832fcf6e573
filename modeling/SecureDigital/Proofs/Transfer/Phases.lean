import SecureDigital.Device.Scripted
import SecureDigital.Proofs.Alike
import SecureDigital.Proofs.Transcript
import SecureDigital.Proofs.Transfer.Calls

/-!
# The phases of a transfer

A block is written in three phases, each with a budget of its own: the command, the data, and the latch of the DMA reader.
`BlockSent` lists how they may go and what the write returns in each case. A read is its command alone: it asks nothing of
the reader, so that devices which differ in the latch only see the same run.
-/

namespace SecureDigital

open Card

/-- The accesses of a write: those of its command, and the reads of the latch after them. -/
def Transcript.andLatches (t : Transcript) (c : Command) (latches : List UInt32) : List Access :=
  t.accesses c ++ latches.map (.read .readerDone)

/-- How the phases of a write with the command `c` may go. -/
inductive BlockSent (config : Config) (c : Command) : Except Halt Status → List Access → Prop
  | unfinished {e : Halt} {xs : List Access} (hrun : Executed config c (.error e) xs)
      (hdata : Access.values .dataEvent xs ≠ [] → Phase.outcome .command (Access.values .cmdEvent xs) = .ok) :
      BlockSent config c (.error e) xs
  | failed {t : Transcript} (hvalid : t.Valid config c) (hfailed : t.commandStatus ≠ .ok) :
      BlockSent config c (.ok t.commandStatus) (t.accesses c)
  | drained {t : Transcript} {idle : Nat} {latch : UInt32} (hvalid : t.Valid config c) (hpassed : t.commandStatus = .ok)
      (hlimit : config.dmaPoll.Allows idle) (hlatch : latch ≠ 0) :
      BlockSent config c (.ok t.dataStatus) (t.andLatches c (List.replicate idle 0 ++ [latch]))
  /-- The budget of the latch is used up; how the data phase ended does not count. -/
  | stuck {t : Transcript} {n : UInt32} (hvalid : t.Valid config c) (hpassed : t.commandStatus = .ok)
      (hlimit : config.dmaPoll = .attempts n) :
      BlockSent config c (.ok .timeout) (t.andLatches c (List.replicate n.toNat 0))
  | waiting {t : Transcript} {idle : Nat} {e : Halt} (hvalid : t.Valid config c) (hpassed : t.commandStatus = .ok)
      (hlimit : config.dmaPoll.Allows idle) : BlockSent config c (.error e) (t.andLatches c (List.replicate idle 0))

/-- The latch was polled, within `limit`, until it was read as set. -/
def DrainedWithin (limit : PollLimit) (xs : List Access) : Prop :=
  ∃ idle latch, Access.values .readerDone xs = List.replicate idle 0 ++ [latch] ∧ latch ≠ 0 ∧ limit.Allows idle

theorem not_drainedWithin {limit : PollLimit} {xs : List Access} {n : Nat}
    (h : Access.values .readerDone xs = List.replicate n 0) : ¬ DrainedWithin limit xs := by
  rintro ⟨idle, latch, hvalues, hlatch, -⟩
  have hmem : latch ∈ List.replicate n 0 := by
    rw [← h, hvalues]
    exact List.mem_append_right _ List.mem_cons_self
  exact hlatch (List.eq_of_mem_replicate hmem)

section Outcomes
variable {config : Config} {c : Command} {t : Transcript} {latches : List UInt32}

namespace Transcript

@[simp] theorem values_cmdEvent_andLatches : Access.values .cmdEvent (t.andLatches c latches) = t.cmdEvents := by
  simp [andLatches, values_cmdEvent]

@[simp] theorem values_dataEvent_andLatches : Access.values .dataEvent (t.andLatches c latches) = t.dataEvents := by
  simp [andLatches, values_dataEvent]

theorem values_readerDone_accesses : Access.values .readerDone (t.accesses c) = [] :=
  Access.values_readerDone_of_servesCommand (t.servesCommand_accesses c)

@[simp] theorem values_readerDone_andLatches : Access.values .readerDone (t.andLatches c latches) = latches := by
  simp [andLatches, values_readerDone_accesses]

namespace Valid
variable (h : t.Valid config c)

include h

theorem outcome_command : Phase.outcome .command t.cmdEvents = t.commandStatus := h.command.outcome_eq

theorem outcome_data (hpassed : t.commandStatus = .ok) (hc : c.transfer ≠ .none) :
    Phase.outcome .data t.dataEvents = t.dataStatus :=
  (h.data hpassed hc).outcome_eq

end Valid

theorem status_reply (hpassed : t.commandStatus = .ok) (hc : c.transfer ≠ .none) : (t.reply c).status = t.dataStatus :=
  if_pos ⟨hpassed, hc⟩

end Transcript

namespace BlockSent
variable {r : Except Halt Status} {xs : List Access}

/-- A write is `ok` if and only if all three phases are. -/
theorem eq_ok_iff (h : BlockSent config c r xs) (hc : c.transfer ≠ .none) :
    r = .ok .ok ↔ Phase.outcome .command (Access.values .cmdEvent xs) = .ok ∧
      Phase.outcome .data (Access.values .dataEvent xs) = .ok ∧ DrainedWithin config.dmaPoll xs := by
  have hundrained {ys : List Access} {n : Nat} {r : Except Halt Status} (hr : r ≠ .ok .ok)
      (hlatches : Access.values .readerDone ys = List.replicate n 0) :
      r = .ok .ok ↔ Phase.outcome .command (Access.values .cmdEvent ys) = .ok ∧
        Phase.outcome .data (Access.values .dataEvent ys) = .ok ∧ DrainedWithin config.dmaPoll ys :=
    iff_of_false hr fun hphases => not_drainedWithin hlatches hphases.2.2
  cases h with
  | unfinished hrun =>
    exact hundrained (n := 0) nofun (Access.values_readerDone_of_servesCommand hrun.servesCommand)
  | failed _ hfailed =>
    exact hundrained (n := 0) (fun hr => hfailed (Except.ok.inj hr)) Transcript.values_readerDone_accesses
  | stuck => exact hundrained nofun Transcript.values_readerDone_andLatches
  | waiting => exact hundrained nofun Transcript.values_readerDone_andLatches
  | drained hvalid hpassed hlimit hlatch =>
    rw [Transcript.values_cmdEvent_andLatches, Transcript.values_dataEvent_andLatches, hvalid.outcome_command,
      hvalid.outcome_data hpassed hc]
    refine ⟨fun hr => ⟨hpassed, Except.ok.inj hr, _, _, Transcript.values_readerDone_andLatches, hlatch, hlimit⟩, ?_⟩
    rintro ⟨-, hdata, -⟩
    rw [hdata]

/-- After a command phase that failed there is nothing to wait for. -/
theorem of_failed (h : BlockSent config c r xs)
    (hfailed : Phase.outcome .command (Access.values .cmdEvent xs) ≠ .ok) :
    Access.values .dataEvent xs = [] ∧ Access.values .readerDone xs = [] ∧
      ∀ status, r = .ok status → status = Phase.outcome .command (Access.values .cmdEvent xs) := by
  have hpassed' {t : Transcript} {latches : List UInt32} (hvalid : t.Valid config c) (hpassed : t.commandStatus = .ok) :
      Phase.outcome .command (Access.values .cmdEvent (t.andLatches c latches)) = .ok := by
    rw [Transcript.values_cmdEvent_andLatches, hvalid.outcome_command, hpassed]
  cases h with
  | unfinished hrun hdata =>
    exact ⟨Decidable.byContradiction fun hne => hfailed (hdata hne),
      Access.values_readerDone_of_servesCommand hrun.servesCommand, nofun⟩
  | @failed t hvalid hcommand =>
    rw [t.values_dataEvent, t.values_cmdEvent, hvalid.outcome_command]
    refine ⟨hvalid.noData fun hboth => hcommand hboth.1, Transcript.values_readerDone_accesses, fun status hr => ?_⟩
    exact (Except.ok.inj hr).symm
  | drained hvalid hpassed => exact absurd (hpassed' hvalid hpassed) hfailed
  | stuck hvalid hpassed => exact absurd (hpassed' hvalid hpassed) hfailed
  | waiting hvalid hpassed => exact absurd (hpassed' hvalid hpassed) hfailed

end BlockSent

end Outcomes

section Runs

variable {σ : Type} [Device σ] {config : Config} {c : Command} {card : Card} {xs : List Access}

namespace Driver.Runs

/-- The data phase is looked at only after a command phase that went well. -/
theorem settle_dataEvent {r : Except Halt Reply} (h : (c.settle config : Driver σ Reply).Runs r xs)
    (hdata : Access.values .dataEvent xs ≠ []) : Phase.outcome .command (Access.values .cmdEvent xs) = .ok := by
  rcases h.bind with ⟨e, rfl, hawait⟩ | ⟨status, _, ys, rfl, hawait, h₁⟩
  · obtain ⟨events, rfl, -⟩ := hawait.await
    simp [Phase.register] at hdata
  obtain ⟨events, rfl, ⟨⟨⟩, -⟩ | ⟨_, ⟨⟩, -⟩⟩ := hawait.await
  have hreads {reads : List Access} (h : ∀ a ∈ reads, ∃ i value, a = .read (.response i) value) :
      Access.values .cmdEvent reads = [] ∧ Access.values .dataEvent reads = [] :=
    ⟨Access.values_of_forall_response (by simp) h, Access.values_of_forall_response (by simp) h⟩
  rcases h₁.bind with ⟨e, rfl, hcollect⟩ | ⟨response, _, ys, rfl, hcollect, h₂⟩
  · obtain ⟨_, ⟨⟩, -⟩ | ⟨_, -, -, hresponses⟩ := hcollect.collect
    obtain ⟨-, hnone⟩ := hreads fun a ha => (hresponses a ha).imp fun i => Exists.imp fun value => And.right
    simp [Phase.register, hnone] at hdata
  obtain ⟨_, ⟨⟩, rfl, -⟩ | ⟨_, ⟨⟩, -⟩ := hcollect.collect
  obtain ⟨hcmd, hnone⟩ := hreads fun a (ha : a ∈ c.response.reads response) => ResponseKind.eq_of_mem_reads ha
  by_cases hok : Phase.outcome .command events = .ok
  · rw [if_pos hok] at h₂
    have hys : ∃ dataEvents : List UInt32, ys = dataEvents.map (.read .dataEvent) := by
      rcases h₂.bind with ⟨e, rfl, hfinish⟩ | ⟨_, _, _, rfl, hfinish, h₃⟩
      · obtain ⟨dataEvents, rfl, -⟩ := hfinish.finish
        exact ⟨_, rfl⟩
      · obtain ⟨dataEvents, rfl, -⟩ := hfinish.finish
        obtain ⟨-, rfl⟩ := h₃.of_pure
        exact ⟨_, List.append_nil _⟩
    obtain ⟨dataEvents, rfl⟩ := hys
    simpa [Phase.register, hcmd] using hok
  · rw [if_neg hok] at h₂
    obtain ⟨-, rfl⟩ := h₂.of_notes_bind.of_pure
    simp [Phase.register, hnone] at hdata

theorem execute_dataEvent {r : Except Halt Reply} (h : (c.execute config : Driver σ Reply).Runs r xs)
    (hdata : Access.values .dataEvent xs ≠ []) : Phase.outcome .command (Access.values .cmdEvent xs) = .ok := by
  rcases h.of_execute with ⟨e, rfl, hxs | ⟨-, rfl⟩⟩ | ⟨ys, rfl, hsettle⟩
  · exact absurd (Command.values_prepared hxs) hdata
  · exact absurd Command.values_launched hdata
  · rw [Command.values_launched] at hdata ⊢
    exact hsettle.settle_dataEvent hdata

theorem blockSent {block src : UInt32} {r : Except Halt Status}
    (h : (card.writeBlock block src : Driver σ Status).Runs r xs) :
    BlockSent card.config (card.writeCommand block src) r xs := by
  have htransfer : (card.writeCommand block src).transfer ≠ .none := nofun
  rcases h.of_writeBlock with ⟨e, rfl, hrun⟩ | ⟨reply, ys, zs, rfl, hrun, hlatch⟩
  · exact .unfinished hrun.execute hrun.execute_dataEvent
  obtain ⟨t, hvalid, rfl, rfl⟩ := hrun.exists_transcript
  rcases hlatch with ⟨hfailed, rfl, rfl⟩ | ⟨hpassed, r', hlatch, rfl⟩
  · rw [List.append_nil]
    exact .failed hvalid hfailed
  cases hlatch with
  | hit hidle hlimit hlast =>
    rw [eq_replicate_of_not_drained hidle, Except.map, Option.elim, Transcript.status_reply hpassed htransfer]
    exact .drained hvalid hpassed hlimit (drained?_eq_some_iff.1 hlast)
  | spent hidle hlimit hlength =>
    rw [eq_replicate_of_not_drained hidle, hlength]
    exact .stuck hvalid hpassed hlimit
  | halted hidle hlimit =>
    rw [eq_replicate_of_not_drained hidle]
    exact .waiting hvalid hpassed hlimit

end Driver.Runs

theorem block_transfer_phases (card : Card) (block address : UInt32) :
    (∀ r xs, (card.writeBlock block address : Driver σ Status).Runs r xs →
      BlockSent card.config (card.writeCommand block address) r xs ∧
      (r = .ok .ok ↔ Phase.outcome .command (Access.values .cmdEvent xs) = .ok ∧
        Phase.outcome .data (Access.values .dataEvent xs) = .ok ∧ DrainedWithin card.config.dmaPoll xs) ∧
      (Phase.outcome .command (Access.values .cmdEvent xs) ≠ .ok →
        Access.values .dataEvent xs = [] ∧ Access.values .readerDone xs = [] ∧
          ∀ status, r = .ok status → status = Phase.outcome .command (Access.values .cmdEvent xs))) ∧
    (∀ r xs, (card.readBlock block address : Driver σ Status).Runs r xs →
      Access.values .readerDone xs = [] ∧ ∃ r' : Except Halt Reply,
        ((card.readCommand block address).execute card.config : Driver σ Reply).Runs r' xs ∧ r = r'.map Reply.status ∧
          ∀ reply, r' = .ok reply → ∃ t : Transcript, t.Valid card.config (card.readCommand block address) ∧
            xs = t.accesses (card.readCommand block address) ∧ reply = t.reply (card.readCommand block address)) ∧
    ∀ (τ : Type) [Device τ] (R : σ → τ → Prop), Device.Alike .readerDone R → ∀ s t budget, R s t →
      ((card.readBlock block address).run t budget).result = ((card.readBlock block address).run s budget).result ∧
        ((card.readBlock block address).run t budget).accesses =
          ((card.readBlock block address).run s budget).accesses := by
  refine ⟨fun r xs h => ?_, fun r xs h => ?_, fun τ _ R halike s t budget hst => ?_⟩
  · have hsent := h.blockSent
    exact ⟨hsent, hsent.eq_ok_iff nofun, hsent.of_failed⟩
  · obtain ⟨r', hrun, rfl⟩ := h.of_readBlock
    refine ⟨Access.values_readerDone_of_servesCommand hrun.execute.servesCommand, r', hrun, rfl, ?_⟩
    rintro reply rfl
    exact hrun.exists_transcript
  · obtain ⟨t', -, hrun⟩ := Driver.Alike.readBlock halike card block address s t budget hst
    rw [hrun]
    exact ⟨rfl, rfl⟩

end Runs

namespace Scripted

def setReaderDone (s : Scripted) (latches : List UInt32) : Scripted := { s with readerDone := latches }

/-- Devices that differ in the latch of the DMA reader only. -/
theorem alike_setReaderDone :
    Device.Alike .readerDone fun s t : Scripted => ∃ latches, t = s.setReaderDone latches where
  write := by
    rintro s _ ⟨latches, rfl⟩ register value
    cases register <;> exact .some ⟨latches, rfl⟩
  read := by
    rintro s _ ⟨latches, rfl⟩ register hregister
    cases register with
    | readerDone => exact absurd rfl hregister
    | _ => exact ⟨rfl, latches, rfl⟩

end Scripted

/-- The first device has the latch set in time; the second fails the CRC check and has it set too late. -/
theorem block_transfer_phases_scripted :
    let card := Card.fresh { dmaPoll := .attempts 3 }
    let prompt : Scripted := { readerDone := [0, 0, 7] }
    let late : Scripted := { readerDone := [0, 0, 0, 7], otherwise := { dataEvents := [9] } }
    let o := (card.writeBlock 5 0x100).run prompt 100
    let o' := (card.writeBlock 5 0x100).run late 100
    o.result = .ok .ok ∧ DrainedWithin (.attempts 3) o.accesses ∧
      o'.result = .ok .timeout ∧ BlockSent card.config (card.writeCommand 5 0x100) (.ok .timeout) o'.accesses ∧
      ((card.readBlock 5 0x100).run (prompt.setReaderDone [0]) 100).accesses =
        ((card.readBlock 5 0x100).run prompt 100).accesses := by
  intro card prompt late o o'
  have hends : Driver.ends (card.writeBlock 5 0x100) prompt 100 (· = .ok) ∧
      Driver.ends (card.writeBlock 5 0x100) late 100 (· = .timeout) := by decide +kernel
  obtain ⟨_, hstatus, hprompt⟩ := Driver.exists_of_ends hends.1
  obtain ⟨_, hstatus', hlate⟩ := Driver.exists_of_ends hends.2
  rw [of_decide_eq_true hstatus] at hprompt
  rw [of_decide_eq_true hstatus'] at hlate
  obtain ⟨hwrites, -, halike⟩ := block_transfer_phases (σ := Scripted) card 5 0x100
  obtain ⟨-, hok, -⟩ := hwrites _ o.accesses ⟨prompt, 100, rfl, rfl⟩
  obtain ⟨hsent, -⟩ := hwrites _ o'.accesses ⟨late, 100, rfl, rfl⟩
  have hreads := halike Scripted _ Scripted.alike_setReaderDone prompt _ 100 ⟨[0], rfl⟩
  exact ⟨hprompt, (hok.1 hprompt).2.2, hlate, hlate ▸ hsent, hreads.2⟩

end SecureDigital

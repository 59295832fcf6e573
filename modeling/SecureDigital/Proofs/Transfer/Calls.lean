import SecureDigital.Card.Transfer
import SecureDigital.Proofs.Execute

/-!
# The calls of a host on a card

Once a card is brought up the host fills its buffers and moves blocks: a `HostCall` is one such step,
and `Card.performs` makes a list of them one after the other. The runs of a transfer are those of its
command (`Executed`), followed in a write by the wait for the DMA reader's latch (`Written`).
-/

namespace SecureDigital

inductive HostCall
  | writeMemory (address : UInt32) (bytes : Array UInt8)
  | writeBlock (block src : UInt32)
  | readBlock (block dest : UInt32)
deriving DecidableEq

namespace Card

def writeCommand (card : Card) (block src : UInt32) : Command :=
  (Command.of .writeSingleBlock (card.dataAddress block) .short).withWrite src blockSize

def readCommand (card : Card) (block dest : UInt32) : Command :=
  (Command.of .readSingleBlock (card.dataAddress block) .short).withRead dest blockSize

variable {σ : Type} [Device σ]

/-- What the call comes back with, if it is a transfer. -/
def perform (card : Card) : HostCall → Driver σ (Option Status)
  | .writeMemory address bytes => do
    Driver.writeMemory address bytes
    return none
  | .writeBlock block src => some <$> card.writeBlock block src
  | .readBlock block dest => some <$> card.readBlock block dest

def performs (card : Card) (calls : List HostCall) : Driver σ (List (Option Status)) :=
  calls.mapM card.perform

theorem performs_cons (card : Card) (call : HostCall) (calls : List HostCall) :
    (card.performs (call :: calls) : Driver σ _) = (do
      let status ← card.perform call
      let statuses ← card.performs calls
      return status :: statuses) :=
  List.mapM_cons

/-- What a value of the latch tells: nothing while it is 0. -/
def drained? (latch : UInt32) : Option Unit := if latch = 0 then none else some ()

@[simp] theorem drained?_eq_none_iff {latch : UInt32} : drained? latch = none ↔ latch = 0 := by
  simp [drained?]

theorem eq_replicate_of_not_drained {latches : List UInt32} (h : ∀ w ∈ latches, drained? w = none) :
    latches = List.replicate latches.length 0 :=
  List.eq_replicate_iff.2 ⟨rfl, fun w hw => drained?_eq_none_iff.1 (h w hw)⟩

theorem drained?_eq_some_iff {latch : UInt32} {u : Unit} : drained? latch = some u ↔ latch ≠ 0 := by
  simp [drained?]

end Card

open Card

/-- The wait for the DMA reader takes no part in the command. -/
theorem Card.isQuiet_latch {limit : PollLimit} {r : Except Halt (Option Unit)} {ys : List Access}
    (h : PolledRegister limit .readerDone drained? r ys) : ∀ a ∈ ys, a.isQuiet := by
  obtain ⟨words, rfl⟩ := h.exists_words
  intro a ha
  obtain ⟨w, -, rfl⟩ := List.mem_map.1 ha
  rfl

/-- How a run of `writeBlock` with the command `c` may go. -/
inductive Written (config : Config) (c : Command) : Except Halt Status → List Access → Prop
  | unfinished {e : Halt} {xs : List Access} (hrun : Executed config c (.error e) xs) :
      Written config c (.error e) xs
  | failed {reply : Reply} {xs : List Access} (hrun : Executed config c (.ok reply) xs)
      (hfailed : reply.commandStatus ≠ .ok) : Written config c (.ok reply.commandStatus) xs
  | awaited {reply : Reply} {r : Except Halt (Option Unit)} {xs ys : List Access}
      (hrun : Executed config c (.ok reply) xs) (hpassed : reply.commandStatus = .ok)
      (hlatch : PolledRegister config.dmaPoll .readerDone drained? r ys) :
      Written config c (r.map fun latch => latch.elim .timeout fun _ => reply.status) (xs ++ ys)

namespace Driver.Runs

variable {σ : Type} [Device σ] {card : Card} {xs : List Access}

/-- A read is its command, and comes back with the status of it. -/
theorem of_readBlock {block dest : UInt32} {r : Except Halt Status}
    (h : (card.readBlock block dest : Driver σ Status).Runs r xs) :
    ∃ r', ((card.readCommand block dest).execute card.config : Driver σ Reply).Runs r' xs ∧
      r = r'.map Reply.status := by
  rcases h.of_notes_bind.bind with ⟨e, rfl, hrun⟩ | ⟨reply, ys, zs, rfl, hrun, hpure⟩
  · exact ⟨_, hrun, rfl⟩
  · obtain ⟨rfl, rfl⟩ := hpure.of_pure
    rw [List.append_nil]
    exact ⟨_, hrun, rfl⟩

theorem readBlock {block dest : UInt32} {r : Except Halt Status}
    (h : (card.readBlock block dest : Driver σ Status).Runs r xs) :
    ∃ r', Executed card.config (card.readCommand block dest) r' xs ∧ r = r'.map Reply.status := by
  obtain ⟨r', hrun, hr⟩ := h.of_readBlock
  exact ⟨r', hrun.execute, hr⟩

/-- A write runs its command, and waits for the latch if the command phase went well. -/
theorem of_writeBlock {block src : UInt32} {r : Except Halt Status}
    (h : (card.writeBlock block src : Driver σ Status).Runs r xs) :
    (∃ e, r = .error e ∧ ((card.writeCommand block src).execute card.config : Driver σ Reply).Runs (.error e) xs) ∨
      ∃ reply ys zs, xs = ys ++ zs ∧
        ((card.writeCommand block src).execute card.config : Driver σ Reply).Runs (.ok reply) ys ∧
        ((reply.commandStatus ≠ .ok ∧ r = .ok reply.commandStatus ∧ zs = []) ∨
          (reply.commandStatus = .ok ∧ ∃ r', PolledRegister card.config.dmaPoll .readerDone drained? r' zs ∧
            r = r'.map fun latch => latch.elim .timeout fun _ => reply.status)) := by
  rcases h.of_notes_bind.bind with ⟨e, rfl, hrun⟩ | ⟨reply, ys, zs, rfl, hrun, hrest⟩
  · exact .inl ⟨e, rfl, hrun⟩
  refine .inr ⟨reply, ys, zs, rfl, hrun, ?_⟩
  by_cases hpassed : reply.commandStatus = .ok
  · rw [if_pos hpassed] at hrest
    refine .inr ⟨hpassed, ?_⟩
    rcases hrest.bind with ⟨e, rfl, hlatch⟩ | ⟨latch, us, vs, rfl, hlatch, hstatus⟩
    · exact ⟨_, hlatch.pollRegister, rfl⟩
    · rcases latch with _ | _
      · obtain ⟨rfl, rfl⟩ := hstatus.of_notes_bind.of_pure
        rw [List.append_nil]
        exact ⟨_, hlatch.pollRegister, rfl⟩
      · obtain ⟨rfl, rfl⟩ := hstatus.of_pure
        rw [List.append_nil]
        exact ⟨_, hlatch.pollRegister, rfl⟩
  · rw [if_neg hpassed] at hrest
    obtain ⟨rfl, rfl⟩ := hrest.of_notes_bind.of_pure
    exact .inl ⟨hpassed, rfl, rfl⟩

theorem writeBlock {block src : UInt32} {r : Except Halt Status}
    (h : (card.writeBlock block src : Driver σ Status).Runs r xs) :
    Written card.config (card.writeCommand block src) r xs := by
  rcases h.of_writeBlock with ⟨e, rfl, hrun⟩ | ⟨reply, ys, zs, rfl, hrun, hrest⟩
  · exact .unfinished hrun.execute
  rcases hrest with ⟨hfailed, rfl, rfl⟩ | ⟨hpassed, r', hlatch, rfl⟩
  · rw [List.append_nil]
    exact .failed hrun.execute hfailed
  · exact .awaited hrun.execute hpassed hlatch

/-- The first call halts, or the others follow it. -/
theorem performs_cons {call : HostCall} {calls : List HostCall} {r : Except Halt (List (Option Status))}
    (h : (card.performs (call :: calls) : Driver σ _).Runs r xs) :
    (∃ e, r = .error e ∧ (card.perform call : Driver σ _).Runs (.error e) xs) ∨
      ∃ status r' ys zs, xs = ys ++ zs ∧ (card.perform call : Driver σ _).Runs (.ok status) ys ∧
        (card.performs calls : Driver σ _).Runs r' zs ∧ r = r'.map (status :: ·) := by
  rw [Card.performs_cons] at h
  rcases h.bind with hstop | ⟨status, ys, zs, rfl, hcall, hrest⟩
  · exact .inl hstop
  rcases hrest.bind with ⟨e, rfl, hcalls⟩ | ⟨statuses, us, vs, rfl, hcalls, hpure⟩
  · exact .inr ⟨status, _, ys, zs, rfl, hcall, hcalls, rfl⟩
  · obtain ⟨rfl, rfl⟩ := hpure.of_pure
    rw [List.append_nil]
    exact .inr ⟨status, _, ys, us, rfl, hcall, hcalls, rfl⟩

end Driver.Runs

end SecureDigital

import SecureDigital.Proofs.BringUp.Stepwise

/-!
# What passes from the parts of a program to the whole

A property of programs is `Compositional` if it holds of the single accesses, passes from the parts of a
sequence to the whole, and speaks of each run by itself. Such a property holds of all that the driver does:
of its loops, of a command, of every stage of the bring-up and of the bring-up as a whole.
-/

namespace SecureDigital

variable {σ α β : Type} [Device σ]

structure Driver.Compositional (P : ∀ {α : Type}, Driver σ α → Prop) : Prop where
  pure : ∀ {α : Type} (a : α), P (Pure.pure a : Driver σ α)
  notes : ∀ ns : List Notice, P (Driver.notes ns : Driver σ Unit)
  halt : ∀ {α : Type} (h : Halt), P (Driver.halt h : Driver σ α)
  bind : ∀ {α β : Type} {m : Driver σ α} {f : α → Driver σ β}, P m → (∀ a, P (f a)) → P (m >>= f)
  write : ∀ (register : ControlRegister) (value : UInt32), P (Driver.write register value : Driver σ Unit)
  read : ∀ register : StatusRegister, P (Driver.read register : Driver σ UInt32)
  readMemory : ∀ (address : UInt32) (length : Nat), P (Driver.readMemory address length : Driver σ _)
  of_runs : ∀ {α : Type} {m : Driver σ α}, (∀ s b, ∃ m' : Driver σ α, P m' ∧ m'.run s b = m.run s b) → P m

namespace Driver.Compositional

variable {P : ∀ {α : Type}, Driver σ α → Prop} (h : Compositional (@P))

include h

theorem sequential : Sequential (@P) where
  pure := h.pure
  notes := h.notes
  halt := h.halt
  bind := h.bind
  of_runs := h.of_runs

theorem writeCounter (address word : UInt32) : P (Clock.writeCounter address word : Driver σ Unit) :=
  h.bind (h.write _ _) fun _ => h.bind (h.write _ _) fun _ => h.bind (h.write _ _) fun _ =>
    h.sequential.repeatUntil (h.bind (h.read _) fun _ => h.pure _)

theorem program (khz : UInt32) : P (Clock.program khz : Driver σ Ratio) :=
  h.bind (h.notes _) fun _ => h.bind (h.sequential.forM fun _ => h.writeCounter _ _) fun _ => h.pure _

theorem delay (sysClkHz ms : UInt32) : P (Timer.delay sysClkHz ms : Driver σ Unit) :=
  h.bind (h.write _ _) fun _ => h.bind (h.write _ _) fun _ => h.bind (h.write _ _) fun _ =>
    h.bind (h.write _ _) fun _ =>
      h.sequential.repeatUntil (h.bind (h.write _ _) fun _ => h.bind (h.read _) fun _ => h.pure _)

theorem arm (c : Command) : P (c.arm : Driver σ Unit) := by
  unfold Command.arm
  cases c.transfer with
  | none => exact h.pure ()
  | read dest => exact h.bind (h.write _ _) fun _ => h.bind (h.write _ _) fun _ => h.write _ _
  | write src =>
    exact h.bind (h.write _ _) fun _ => h.bind (h.write _ _) fun _ => h.bind (h.write _ _) fun _ => h.write _ _

theorem await (config : Config) (phase : Phase) : P (phase.await config : Driver σ Status) := by
  refine h.bind (h.sequential.poll (h.bind (h.read _) fun _ => h.pure _)) fun result => ?_
  cases result with
  | none => exact h.bind (h.notes _) fun _ => h.pure _
  | some status => exact h.pure status

theorem collect (kind : ResponseKind) : P (Command.collect kind : Driver σ Response) := by
  cases kind with
  | none => exact h.pure _
  | short | long =>
    exact h.bind (h.read _) fun _ => h.bind (h.read _) fun _ => h.bind (h.read _) fun _ =>
      h.bind (h.read _) fun _ => h.pure _

theorem finish (config : Config) (c : Command) : P (c.finish config : Driver σ Status) := by
  unfold Command.finish
  split
  · exact h.bind (h.await config .data) fun _ => h.bind (h.notes _) fun _ => h.pure _
  · exact h.pure _

theorem execute (config : Config) (c : Command) : P (c.execute config : Driver σ Reply) := by
  refine h.bind (h.notes _) fun _ => h.bind (h.write _ _) fun _ => h.bind (h.arm c) fun _ =>
    h.bind (h.write _ _) fun _ => h.bind (h.await config .command) fun status =>
      h.bind (h.collect c.response) fun response => ?_
  split
  · exact h.bind (h.finish config c) fun _ => h.pure _
  · exact h.bind (h.notes _) fun _ => h.pure _

theorem prepare (config : Config) : P (Card.prepare config : Driver σ Unit) :=
  h.bind (h.write _ _) fun _ => h.bind (h.write _ _) fun _ => h.bind (h.program _) fun _ => h.delay _ _

theorem powerUpRound (config : Config) : P (Card.powerUpRound config : Driver σ (Option UInt32)) :=
  h.sequential.powerUpRound (h.execute config _) (h.execute config _) h.delay

theorem bringUp (config : Config) : P (Card.bringUp config : Fallible σ Card).run :=
  h.sequential.bringUp (h.execute config) h.readMemory h.delay h.program (h.prepare config)

end Driver.Compositional

end SecureDigital

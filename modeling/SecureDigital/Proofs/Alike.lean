import SecureDigital.Card.Transfer

/-!
# Runs on two devices side by side

`Device.Alike spared R`: states related by `R` take the same writes and read alike, but for the register `spared`, of which
nothing is said. A program that does not read this register makes the same run on both devices (`Driver.Alike`): a command
(`Alike.execute`) and the read of a block (`Alike.readBlock`) do not ask the DMA reader whether it is done.
-/

namespace SecureDigital

variable {σ τ α β : Type}

structure Device.Alike [Device σ] [Device τ] (spared : StatusRegister) (R : σ → τ → Prop) : Prop where
  write : ∀ {s t}, R s t → ∀ register value,
    Option.Rel R (Device.write s register value) (Device.write t register value)
  read : ∀ {s t}, R s t → ∀ register, register ≠ spared →
    (Device.read s register).1 = (Device.read t register).1 ∧ R (Device.read s register).2 (Device.read t register).2

/-- The outcome of the same run on a device that is left in the state `t`. -/
def Outcome.on (o : Outcome σ α) (t : τ) : Outcome τ α := ⟨o.result, t, o.budget, o.accesses, o.notices⟩

/-- From related states the programs make the same run, to related states. -/
def Driver.Alike (R : σ → τ → Prop) (m : Driver σ α) (m' : Driver τ α) : Prop :=
  ∀ s t b, R s t → ∃ t', R (m.run s b).device t' ∧ m'.run t b = (m.run s b).on t'

namespace Driver.Alike

variable {R : σ → τ → Prop}

theorem pure (a : α) : Alike R (Pure.pure a) (Pure.pure a) := fun _ t _ hst => ⟨t, hst, rfl⟩

theorem notes (ns : List Notice) : Alike R (Driver.notes ns) (Driver.notes ns) := fun _ t _ hst => ⟨t, hst, rfl⟩

theorem halt (h : Halt) : Alike R (Driver.halt h : Driver σ α) (Driver.halt h) := fun _ t _ hst => ⟨t, hst, rfl⟩

theorem bind {m : Driver σ α} {m' : Driver τ α} {f : α → Driver σ β} {f' : α → Driver τ β} (hm : Alike R m m')
    (hf : ∀ a, Alike R (f a) (f' a)) : Alike R (m >>= f) (m' >>= f') := by
  intro s t b hst
  obtain ⟨t₁, h₁, hrun⟩ := hm s t b hst
  simp only [run, bind_apply] at h₁ hrun ⊢
  rw [hrun]
  rcases hm' : m s b with ⟨e | a, s', b', xs, ns⟩ <;> rw [hm'] at h₁
  · exact ⟨t₁, h₁, rfl⟩
  · obtain ⟨t₂, h₂, hrest⟩ := hf a s' t₁ b' h₁
    simp only [run] at h₂ hrest
    exact ⟨t₂, h₂, by simp only [Outcome.on, hrest]⟩

theorem attempt {body : Driver σ (Option α)} {body' : Driver τ (Option α)} (hbody : Alike R body body') (n : Nat) :
    Alike R (Driver.attempt n body) (Driver.attempt n body') := by
  induction n with
  | zero => exact pure none
  | succ n ih =>
    refine bind hbody fun a => ?_
    cases a with
    | none => exact ih
    | some a => exact pure (some a)

theorem repeatUntil {body : Driver σ (Option α)} {body' : Driver τ (Option α)} (hbody : Alike R body body') :
    Alike R (Driver.repeatUntil body) (Driver.repeatUntil body') := by
  intro s t b hst
  refine bind (attempt hbody (b + 1)) (fun a => ?_) s t b hst
  cases a with
  | none => exact halt _
  | some a => exact pure a

theorem poll {probe : Driver σ (Option α)} {probe' : Driver τ (Option α)} (limit : PollLimit)
    (hprobe : Alike R probe probe') : Alike R (limit.poll probe) (limit.poll probe') := by
  cases limit with
  | unbounded => exact bind (repeatUntil hprobe) fun a => pure (some a)
  | attempts n => exact attempt hprobe n.toNat

variable [Device σ] [Device τ]

section Accesses

variable {spared register : StatusRegister} (h : Device.Alike spared R)

include h

theorem write (register : ControlRegister) (value : UInt32) :
    Alike R (Driver.write register value) (Driver.write register value) := by
  intro s t b hst
  cases b with
  | zero => exact ⟨t, hst, rfl⟩
  | succ b =>
    have hwrite := h.write hst register value
    simp only [run, Driver.write, spend]
    cases hs : Device.write s register value <;> cases ht : Device.write t register value <;> rw [hs, ht] at hwrite
    case none.none => exact ⟨t, hst, rfl⟩
    case some.some s' t' =>
      cases hwrite with
      | some hst' => exact ⟨t', hst', rfl⟩
    all_goals cases hwrite

theorem read (hregister : register ≠ spared) : Alike R (Driver.read register) (Driver.read register) := by
  intro s t b hst
  cases b with
  | zero => exact ⟨t, hst, rfl⟩
  | succ b =>
    obtain ⟨hvalue, hst'⟩ := h.read hst register hregister
    refine ⟨(Device.read t register).2, hst', ?_⟩
    simp only [run, Driver.read, spend, Outcome.on, hvalue]

end Accesses

/-! ### What does not ask the DMA reader -/

variable (h : Device.Alike .readerDone R) (config : Config)

include h

theorem arm (c : Command) : Alike R c.arm c.arm := by
  unfold Command.arm
  cases c.transfer with
  | none => exact pure ()
  | read dest => exact bind (write h _ _) fun _ => bind (write h _ _) fun _ => write h _ _
  | write src => exact bind (write h _ _) fun _ => bind (write h _ _) fun _ => bind (write h _ _) fun _ => write h _ _

theorem await (phase : Phase) : Alike R (phase.await config) (phase.await config) := by
  have hregister : phase.register ≠ .readerDone := by cases phase <;> decide
  refine bind (poll _ (bind (read h hregister) fun _ => pure _)) fun status => ?_
  cases status with
  | none => exact bind (notes _) fun _ => pure _
  | some status => exact pure status

theorem collect (kind : ResponseKind) : Alike R (Command.collect kind) (Command.collect kind) := by
  cases kind with
  | none => exact pure _
  | short | long =>
    have hword (i : UInt8) : Alike R (Driver.read (.response i)) (Driver.read (.response i)) := read h (by simp)
    exact bind (hword 0) fun _ => bind (hword 1) fun _ => bind (hword 2) fun _ => bind (hword 3) fun _ => pure _

theorem finish (c : Command) : Alike R (c.finish config) (c.finish config) := by
  unfold Command.finish
  split
  · exact bind (await h config .data) fun _ => bind (notes _) fun _ => pure _
  · exact pure _

theorem execute (c : Command) : Alike R (c.execute config) (c.execute config) := by
  refine bind (notes _) fun _ => bind (write h _ _) fun _ => bind (arm h c) fun _ => bind (write h _ _) fun _ =>
    bind (await h config .command) fun status => bind (collect h c.response) fun response => ?_
  split
  · exact bind (finish h config c) fun _ => pure _
  · exact bind (notes _) fun _ => pure _

theorem readBlock (card : Card) (block dest : UInt32) : Alike R (card.readBlock block dest) (card.readBlock block dest) :=
  bind (notes _) fun _ => bind (execute h card.config _) fun _ => pure _

end Driver.Alike

end SecureDigital

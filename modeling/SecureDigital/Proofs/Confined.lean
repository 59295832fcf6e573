import SecureDigital.Clock.Program
import SecureDigital.Proofs.Exchange
import SecureDigital.Proofs.Sequential

/-!
# Programs that keep to some accesses

`m.Confined p`: however a run of `m` ends, all its accesses are of the kind `p`. Setting the clock
touches only the clock generator (`Confined.program`), waiting only the timer (`Confined.delay`), and
neither takes part in any command (`Confined.adds_nil`).
-/

namespace SecureDigital

variable {σ α β : Type}

namespace Access

/-- Whether the access is to the clock generator. -/
def isClock : Access → Bool
  | .write .pllAddress _ | .write .pllData _ | .write .pllWrite _ | .read .pllReady _ => true
  | _ => false

/-- Whether the access is to the timer. -/
def isTimer : Access → Bool
  | .write .timerEnable _ | .write .timerReload _ | .write .timerLoad _ | .write .timerUpdate _
  | .read .timerValue _ => true
  | _ => false

theorem isQuiet_of_isClock {a : Access} (h : a.isClock) : a.isQuiet := by
  unfold isClock at h
  split at h <;> first | rfl | cases h

theorem isQuiet_of_isTimer {a : Access} (h : a.isTimer) : a.isQuiet := by
  unfold isTimer at h
  split at h <;> first | rfl | cases h

end Access

/-- Whatever a run of `m` accesses is of the kind `p`. -/
def Driver.Confined (m : Driver σ α) (p : Access → Bool) : Prop :=
  ∀ ⦃r xs⦄, m.Runs r xs → ∀ a ∈ xs, p a

namespace Driver.Confined

variable {p : Access → Bool}

theorem mono {m : Driver σ α} {q : Access → Bool} (h : m.Confined p) (hpq : ∀ a, p a → q a) : m.Confined q :=
  fun _ _ hrun a ha => hpq a (h hrun a ha)

theorem adds_nil {m : Driver σ α} {r : Except Halt α} {xs : List Access} (h : m.Confined Access.isQuiet)
    (hrun : m.Runs r xs) : Adds xs [] :=
  .of_isQuiet (h hrun)

theorem pure (a : α) : (Pure.pure a : Driver σ α).Confined p := by
  intro r xs h
  obtain ⟨-, rfl⟩ := h.of_pure
  exact nofun

theorem notes (ns : List Notice) : (Driver.notes ns : Driver σ Unit).Confined p := by
  intro r xs h
  obtain ⟨-, rfl⟩ := h.of_notes
  exact nofun

theorem note (n : Notice) : (Driver.note n : Driver σ Unit).Confined p := notes [n]

theorem halt (h : Halt) : (Driver.halt h : Driver σ α).Confined p := by
  intro r xs hrun
  obtain ⟨-, rfl⟩ := hrun.of_halt
  exact nofun

theorem bind {m : Driver σ α} {f : α → Driver σ β} (hm : m.Confined p) (hf : ∀ a, (f a).Confined p) :
    (m >>= f).Confined p := by
  intro r xs h
  rcases h.bind with ⟨e, -, h⟩ | ⟨a, ys, zs, rfl, hys, hzs⟩
  · exact hm h
  · intro x hx
    rcases List.mem_append.1 hx with hx | hx
    · exact hm hys x hx
    · exact hf a hzs x hx

theorem sequential (p : Access → Bool) : Sequential (σ := σ) fun m => m.Confined p where
  pure := pure
  notes := notes
  halt := halt
  bind := bind
  of_runs h := by
    rintro r xs ⟨s, b, hr, hxs⟩
    obtain ⟨m', hm', hrun⟩ := h s b
    exact hm' ⟨s, b, hrun ▸ hr, hrun ▸ hxs⟩

section Accesses

variable [Device σ]

theorem write {register : ControlRegister} {value : UInt32} (h : p (.write register value)) :
    (Driver.write register value : Driver σ Unit).Confined p := by
  intro r xs hrun
  rcases hrun.of_write with ⟨-, rfl⟩ | ⟨-, rfl⟩ | ⟨-, rfl⟩
  · exact List.forall_mem_singleton.2 h
  · exact List.forall_mem_singleton.2 h
  · exact nofun

theorem read {register : StatusRegister} (h : ∀ value, p (.read register value)) :
    (Driver.read register : Driver σ UInt32).Confined p := by
  intro r xs hrun
  rcases hrun.of_read with ⟨value, -, rfl⟩ | ⟨-, rfl⟩
  · exact List.forall_mem_singleton.2 (h value)
  · exact nofun

theorem readMemory (address : UInt32) (length : Nat) :
    (Driver.readMemory address length : Driver σ _).Confined Access.isMemoryRead := by
  intro r xs hrun
  rcases hrun.of_readMemory with ⟨bytes, -, rfl⟩ | ⟨-, rfl⟩ | ⟨-, rfl⟩
  · exact List.forall_mem_singleton.2 rfl
  · exact List.forall_mem_singleton.2 rfl
  · exact nofun

theorem writeMemory {address : UInt32} {bytes : Array UInt8} (h : p (.writeMemory address bytes)) :
    (Driver.writeMemory address bytes : Driver σ Unit).Confined p := by
  intro r xs hrun
  rcases hrun.of_writeMemory with ⟨-, rfl⟩ | ⟨-, rfl⟩ | ⟨-, rfl⟩
  · exact List.forall_mem_singleton.2 h
  · exact List.forall_mem_singleton.2 h
  · exact nofun

theorem writeCounter (address word : UInt32) :
    (Clock.writeCounter address word : Driver σ Unit).Confined Access.isClock :=
  bind (write rfl) fun _ => bind (write rfl) fun _ => bind (write rfl) fun _ =>
    (sequential _).repeatUntil (bind (read fun _ => rfl) fun _ => pure _)

theorem program (khz : UInt32) : (Clock.program khz : Driver σ Ratio).Confined Access.isClock :=
  bind (note _) fun _ => bind ((sequential _).forM fun _ => writeCounter _ _) fun _ => pure _

theorem delay (sysClkHz ms : UInt32) : (Timer.delay sysClkHz ms : Driver σ Unit).Confined Access.isTimer :=
  bind (write rfl) fun _ => bind (write rfl) fun _ => bind (write rfl) fun _ => bind (write rfl) fun _ =>
    (sequential _).repeatUntil (bind (write rfl) fun _ => bind (read fun _ => rfl) fun _ => pure _)

end Accesses

end Driver.Confined

end SecureDigital

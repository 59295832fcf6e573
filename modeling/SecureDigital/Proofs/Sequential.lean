import SecureDigital.Proofs.Run

/-!
# What passes from the parts of a program to the whole

A property of programs is `Sequential` if it passes from the parts of a sequence to the whole and speaks of each run by
itself. Such a property then passes through loops, and through sequences that may fail.
-/

namespace SecureDigital

variable {σ α β : Type}

structure Driver.Sequential (P : ∀ {α : Type}, Driver σ α → Prop) : Prop where
  pure : ∀ {α : Type} (a : α), P (Pure.pure a : Driver σ α)
  notes : ∀ ns : List Notice, P (Driver.notes ns : Driver σ Unit)
  halt : ∀ {α : Type} (h : Halt), P (Driver.halt h : Driver σ α)
  bind : ∀ {α β : Type} {m : Driver σ α} {f : α → Driver σ β}, P m → (∀ a, P (f a)) → P (m >>= f)
  of_runs : ∀ {α : Type} {m : Driver σ α}, (∀ s b, ∃ m' : Driver σ α, P m' ∧ m'.run s b = m.run s b) → P m

namespace Driver.Sequential

variable {P : ∀ {α : Type}, Driver σ α → Prop} (h : Sequential (@P))

include h

theorem note (n : Notice) : P (Driver.note n : Driver σ Unit) := h.notes [n]

theorem bind_of_runs {m : Driver σ α} {f : α → Driver σ β} (hm : P m) (hf : ∀ a xs, m.Runs (.ok a) xs → P (f a)) :
    P (m >>= f) := by
  refine h.of_runs fun s b => ?_
  rcases hrun : m s b with ⟨e | a, s', b', xs, ns⟩
  · exact ⟨m >>= fun _ => Driver.halt e, h.bind hm fun _ => h.halt e, by simp [run, bind_apply, hrun]⟩
  · have hruns : m.Runs (.ok a) xs := ⟨s, b, by rw [run, hrun], by rw [run, hrun]⟩
    exact ⟨m >>= fun _ => f a, h.bind hm fun _ => hf a xs hruns, by simp [run, bind_apply, hrun]⟩

theorem attempt {body : Driver σ (Option α)} (hbody : P body) (n : Nat) : P (Driver.attempt n body) := by
  induction n with
  | zero => exact h.pure none
  | succ n ih =>
    refine h.bind hbody fun a => ?_
    cases a with
    | none => exact ih
    | some a => exact h.pure (some a)

theorem repeatUntil {body : Driver σ (Option α)} (hbody : P body) : P (Driver.repeatUntil body) := by
  refine h.of_runs fun s b => ⟨Driver.attempt (b + 1) body >>= orOutOfBudget, ?_, rfl⟩
  refine h.bind (h.attempt hbody (b + 1)) fun a => ?_
  cases a with
  | none => exact h.halt _
  | some a => exact h.pure a

theorem poll {limit : PollLimit} {probe : Driver σ (Option α)} (hprobe : P probe) : P (limit.poll probe) := by
  cases limit with
  | unbounded => exact h.bind (h.repeatUntil hprobe) fun a => h.pure (some a)
  | attempts n => exact h.attempt hprobe n.toNat

theorem forM {l : List α} {f : α → Driver σ Unit} (hf : ∀ a, P (f a)) : P (l.forM f) := by
  induction l with
  | nil => exact h.pure ()
  | cons a l ih => exact h.bind (hf a) fun _ => ih

/-! ### Programs that may fail -/

/-- Of the second program nothing is asked but where a run of the first one has returned. -/
theorem bindFallible {x : Fallible σ α} {f : α → Fallible σ β} (hx : P x.run)
    (hf : ∀ a xs, x.run.Runs (.ok (.ok a)) xs → P (f a).run) : P (x >>= f).run := by
  rw [ExceptT.run_bind]
  refine h.bind_of_runs hx fun r xs hrun => ?_
  cases r with
  | error e => exact h.pure (Except.error e)
  | ok a => exact hf a xs hrun

theorem lift {m : Driver σ α} (hm : P m) : P (ExceptT.lift m : Fallible σ α).run := by
  rw [ExceptT.run_lift, ← bind_pure_comp]
  exact h.bind hm fun a => h.pure (Except.ok a)

theorem bindLift {m : Driver σ α} {f : α → Fallible σ β} (hm : P m) (hf : ∀ a, P (f a).run) :
    P (ExceptT.lift m >>= f).run :=
  h.bindFallible (h.lift hm) fun a _ _ => hf a

end Driver.Sequential

end SecureDigital

import SecureDigital.Proofs.Confined

/-!
# Programs whose accesses depend on what came before

`m.Guarded p front`: if a run of `m` follows the accesses `front`, then however it ends, each of its accesses has `p`
after all those that came before it. A program that is confined to accesses that always have `p` is guarded after
anything (`Guarded.of_confined`); else what a run has returned may tell what came before (`Guarded.bind`).
-/

namespace SecureDigital

variable {σ α β : Type}

/-- Each of the accesses has `p` after `front` and those before it. -/
def GuardedFrom (p : List Access → Access → Prop) : List Access → List Access → Prop
  | _, [] => True
  | front, a :: xs => p front a ∧ GuardedFrom p (front ++ [a]) xs

namespace GuardedFrom

variable {p : List Access → Access → Prop} {front xs ys : List Access}

theorem append_iff : GuardedFrom p front (xs ++ ys) ↔ GuardedFrom p front xs ∧ GuardedFrom p (front ++ xs) ys := by
  induction xs generalizing front with
  | nil => simp [GuardedFrom]
  | cons a xs ih => simp [GuardedFrom, ih, and_assoc]

theorem of_forall (h : ∀ a ∈ xs, ∀ front, p front a) : GuardedFrom p front xs := by
  induction xs generalizing front with
  | nil => trivial
  | cons a xs ih =>
    obtain ⟨ha, hxs⟩ := List.forall_mem_cons.1 h
    exact ⟨ha front, ih hxs⟩

theorem truncate (h : GuardedFrom p front ys) (hxs : xs <+: ys) : GuardedFrom p front xs := by
  obtain ⟨zs, rfl⟩ := hxs
  exact (append_iff.1 h).1

theorem apply {a : Access} (h : GuardedFrom p front (xs ++ a :: ys)) : p (front ++ xs) a := (append_iff.1 h).2.1

end GuardedFrom

def Driver.Guarded (m : Driver σ α) (p : List Access → Access → Prop) (front : List Access) : Prop :=
  ∀ ⦃r xs⦄, m.Runs r xs → GuardedFrom p front xs

namespace Driver.Guarded

variable {p : List Access → Access → Prop} {front : List Access}

theorem of_confined {m : Driver σ α} {q : Access → Bool} (h : m.Confined q) (hq : ∀ a, q a → ∀ front, p front a) :
    m.Guarded p front :=
  fun _ _ hrun => .of_forall fun a ha => hq a (h hrun a ha)

theorem pure (a : α) : (Pure.pure a : Driver σ α).Guarded p front := by
  intro r xs h
  obtain ⟨-, rfl⟩ := h.of_pure
  trivial

theorem notes (ns : List Notice) : (Driver.notes ns : Driver σ Unit).Guarded p front := by
  intro r xs h
  obtain ⟨-, rfl⟩ := h.of_notes
  trivial

theorem halt (h : Halt) : (Driver.halt h : Driver σ α).Guarded p front := by
  intro r xs hrun
  obtain ⟨-, rfl⟩ := hrun.of_halt
  trivial

theorem bind {m : Driver σ α} {f : α → Driver σ β} (hm : m.Guarded p front)
    (hf : ∀ a xs, m.Runs (.ok a) xs → (f a).Guarded p (front ++ xs)) : (m >>= f).Guarded p front := by
  intro r xs h
  rcases h.bind with ⟨e, -, h⟩ | ⟨a, ys, zs, rfl, hys, hzs⟩
  · exact hm h
  · exact GuardedFrom.append_iff.2 ⟨hm hys, hf a ys hys hzs⟩

theorem bindFallible {x : Fallible σ α} {f : α → Fallible σ β} (hx : x.run.Guarded p front)
    (hf : ∀ a xs, x.run.Runs (.ok (.ok a)) xs → (f a).run.Guarded p (front ++ xs)) :
    (x >>= f).run.Guarded p front := by
  rw [ExceptT.run_bind]
  refine hx.bind fun r xs hrun => ?_
  cases r with
  | error e => exact pure (Except.error e)
  | ok a => exact hf a xs hrun

theorem lift {m : Driver σ α} (hm : m.Guarded p front) : (ExceptT.lift m : Fallible σ α).run.Guarded p front := by
  rw [ExceptT.run_lift, ← bind_pure_comp]
  exact hm.bind fun a _ _ => pure (Except.ok a)

theorem sequential (p : List Access → Access → Prop) : Sequential (σ := σ) fun m => ∀ front, m.Guarded p front where
  pure a _ := pure a
  notes ns _ := notes ns
  halt h _ := halt h
  bind hm hf front := (hm front).bind fun a xs _ => hf a (front ++ xs)
  of_runs h front := by
    rintro r xs ⟨s, b, hr, hxs⟩
    obtain ⟨m', hm', hrun⟩ := h s b
    exact hm' front ⟨s, b, hrun ▸ hr, hrun ▸ hxs⟩

section Accesses

variable [Device σ]

theorem write {register : ControlRegister} {value : UInt32} (h : p front (.write register value)) :
    (Driver.write register value : Driver σ Unit).Guarded p front := by
  intro r xs hrun
  rcases hrun.of_write with ⟨-, rfl⟩ | ⟨-, rfl⟩ | ⟨-, rfl⟩
  · exact ⟨h, trivial⟩
  · exact ⟨h, trivial⟩
  · trivial

theorem readMemory {address : UInt32} {length : Nat} (h : ∀ bytes, p front (.readMemory address length bytes)) :
    (Driver.readMemory address length : Driver σ _).Guarded p front := by
  intro r xs hrun
  rcases hrun.of_readMemory with ⟨bytes, -, rfl⟩ | ⟨-, rfl⟩ | ⟨-, rfl⟩
  · exact ⟨h _, trivial⟩
  · exact ⟨h _, trivial⟩
  · trivial

end Accesses

end Driver.Guarded

end SecureDigital

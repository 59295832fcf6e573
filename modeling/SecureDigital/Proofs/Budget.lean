import SecureDigital.Proofs.BringUp.PowerUp
import SecureDigital.Proofs.Compositional

/-!
# The budget of a run

`m.Metered`: a run of `m` spends its budget on accesses, one for each. So an idle round that makes an access leaves less
than it found (`Paced`), and a loop with more rounds than budget does not use them up (`attempt_ne_none`): where
`repeatUntil` stops for want of rounds, it would have stopped for want of budget.
-/

namespace SecureDigital

variable {σ α β : Type}

def Driver.Metered (m : Driver σ α) : Prop := ∀ s b, (m.run s b).budget + (m.run s b).accesses.length = b

theorem Driver.Metered.bind {m : Driver σ α} {f : α → Driver σ β} (hm : m.Metered) (hf : ∀ a, (f a).Metered) :
    (m >>= f).Metered := by
  intro s b
  have hbudget := hm s b
  simp only [run, bind_apply] at hbudget ⊢
  rcases hrun : m s b with ⟨e | a, s', b', xs, ns⟩ <;> rw [hrun] at hbudget
  · exact hbudget
  · have hrest := hf a s' b'
    simp only [run] at hrest hbudget ⊢
    rw [List.length_append]
    omega

theorem Driver.Metered.compositional [Device σ] : Compositional (σ := σ) Metered where
  pure _ _ _ := rfl
  notes _ _ _ := rfl
  halt _ _ _ := rfl
  bind := bind
  write register value s b := by
    cases b with
    | zero => rfl
    | succ b =>
      simp only [run, Driver.write, spend]
      cases Device.write s register value <;> rfl
  read register s b := by cases b <;> rfl
  readMemory address length s b := by
    cases b with
    | zero => rfl
    | succ b =>
      simp only [run, Driver.readMemory, spend]
      cases Device.readMemory s address length <;> rfl
  of_runs h s b := by
    obtain ⟨m', hm', hrun⟩ := h s b
    rw [← hrun]
    exact hm' s b

/-! ### Loops that run out of budget before they run out of rounds -/

/-- A round that yields nothing costs something. -/
def Driver.Paced (probe : Driver σ (Option α)) : Prop :=
  ∀ s b, (probe.run s b).result = .ok none → (probe.run s b).budget < b

namespace Driver.Paced

theorem of_metered {probe : Driver σ (Option α)} (hmetered : probe.Metered)
    (haccess : ∀ xs, probe.Runs (.ok none) xs → xs ≠ []) : probe.Paced := by
  intro s b hnone
  have hlength := List.length_pos_iff.2 (haccess _ ⟨s, b, hnone, rfl⟩)
  have hbudget := hmetered s b
  omega

theorem attempt_ne_none {probe : Driver σ (Option α)} (h : probe.Paced) {n b : Nat} (s : σ) (hb : b < n) :
    ((attempt n probe).run s b).result ≠ .ok none := by
  induction n generalizing s b with
  | zero => exact absurd hb (Nat.not_lt_zero b)
  | succ n ih =>
    have hround := h s b
    simp only [run, attempt, bind_apply] at hround ⊢
    rcases hrun : probe s b with ⟨e | _ | a, s', b', xs, ns⟩ <;> simp only [hrun] at hround ⊢
    · intro hnone
      cases hnone
    · have hless : b' < b := hround trivial
      exact ih s' (by omega)
    · intro hnone
      cases hnone

variable [Device σ]

theorem of_read {register : StatusRegister} (f : UInt32 → Option α) :
    (read register >>= fun word => pure (f word) : Driver σ (Option α)).Paced := by
  have hmetered := Metered.compositional (σ := σ)
  refine of_metered (hmetered.bind (hmetered.read register) fun word => hmetered.pure (f word)) fun xs h => ?_
  obtain ⟨⟨⟩, -⟩ | ⟨word, -, rfl⟩ := h.of_probe
  exact List.cons_ne_nil _ _

theorem latch : (do
    write .timerUpdate 1
    let count ← read .timerValue
    pure (if count = 0 then some () else none) : Driver σ (Option Unit)).Paced := by
  have hmetered := Metered.compositional (σ := σ)
  refine of_metered (hmetered.bind (hmetered.write _ _) fun _ => hmetered.bind (hmetered.read _) fun _ =>
    hmetered.pure _) fun xs h => ?_
  obtain ⟨ys, rfl, -⟩ := h.write_bind_ok
  exact List.cons_ne_nil _ _

theorem powerUpRound (config : Config) : (Card.powerUpRound config : Driver σ (Option UInt32)).Paced := by
  refine of_metered (Metered.compositional.powerUpRound config) fun xs h => ?_
  rintro rfl
  obtain ⟨e, f, -, -, hadds⟩ | ⟨_, _, ⟨⟩, -⟩ := h.round.adds
  have hnil : exchanges [] = [e, f] := hadds.exchanges_eq
  cases hnil

end Driver.Paced

end SecureDigital

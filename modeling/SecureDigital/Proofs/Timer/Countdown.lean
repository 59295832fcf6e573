import SecureDigital.Device.Scripted
import SecureDigital.Proofs.Budget

/-!
# A delay and its count

A delay stops where a count of 0 is read and nowhere else: a run that is halted before has read none, and has used up its
budget unless the device has refused a write (`delay_counts_down`). The count it starts from is cut twice, to whole ticks
a millisecond and to a word. The first cut takes less than a tick for each millisecond (`Timer.mul_eq_ticks_add`).
-/

namespace SecureDigital

variable {σ α β : Type}

/-! ### Runs out of budget -/

/-- A run of `m` that is halted for want of budget has none left. -/
def Driver.UsesUp (m : Driver σ α) : Prop :=
  ∀ s b, (m.run s b).result = .error .outOfBudget → (m.run s b).budget = 0

namespace Driver.UsesUp

theorem pure (a : α) : (Pure.pure a : Driver σ α).UsesUp := nofun

theorem bind {m : Driver σ α} {f : α → Driver σ β} (hm : m.UsesUp) (hf : ∀ a, (f a).UsesUp) : (m >>= f).UsesUp := by
  intro s b
  have hfirst := hm s b
  simp only [run, bind_apply] at hfirst ⊢
  rcases hrun : m s b with ⟨e | a, s', b', xs, ns⟩
  · rw [hrun] at hfirst
    intro hout
    cases hout
    exact hfirst rfl
  · exact hf a s' b'

theorem attempt {body : Driver σ (Option α)} (hbody : body.UsesUp) (n : Nat) : (Driver.attempt n body).UsesUp := by
  induction n with
  | zero => exact pure none
  | succ n ih =>
    refine bind hbody fun a => ?_
    cases a with
    | none => exact ih
    | some a => exact pure (some a)

/-- The rounds of a loop whose rounds cost something outlast its budget. -/
theorem repeatUntil {body : Driver σ (Option α)} (hbody : body.UsesUp) (hpaced : body.Paced) :
    (Driver.repeatUntil body).UsesUp := by
  intro s b
  have hrounds := hbody.attempt (b + 1) s b
  have hmore := hpaced.attempt_ne_none s (Nat.lt_succ_self b)
  have hloop : Driver.repeatUntil body s b = (Driver.attempt (b + 1) body >>= orOutOfBudget) s b := rfl
  simp only [run, hloop, bind_apply] at hrounds hmore ⊢
  rcases hrun : Driver.attempt (b + 1) body s b with ⟨e | _ | a, s', b', xs, ns⟩ <;> simp only [hrun] at hrounds hmore ⊢
  · intro hout
    cases hout
    exact hrounds rfl
  · exact absurd rfl hmore
  · intro hout
    cases hout

variable [Device σ]

theorem write (register : ControlRegister) (value : UInt32) : (Driver.write register value : Driver σ Unit).UsesUp := by
  intro s b
  cases b with
  | zero => exact fun _ => rfl
  | succ b =>
    simp only [run, Driver.write, spend]
    intro hout
    cases h : Device.write s register value <;> rw [h] at hout <;> cases hout

theorem read (register : StatusRegister) : (Driver.read register : Driver σ UInt32).UsesUp := by
  intro s b
  cases b with
  | zero => exact fun _ => rfl
  | succ b =>
    intro hout
    cases hout

theorem delay (sysClkHz ms : UInt32) : (Timer.delay sysClkHz ms : Driver σ Unit).UsesUp := by
  have hround := bind (write (σ := σ) .timerUpdate 1) fun _ => bind (read .timerValue) fun count =>
    pure (if count = 0 then some () else none)
  exact bind (write _ _) fun _ => bind (write _ _) fun _ => bind (write _ _) fun _ => bind (write _ _) fun _ =>
    hround.repeatUntil .latch

end Driver.UsesUp

/-! ### The count -/

namespace Timer

variable {sysClkHz ms : UInt32}

theorem toNat_ticks (sysClkHz ms : UInt32) :
    (ticks sysClkHz ms).toNat = min (UInt32.size - 1) (sysClkHz.toNat / 1000 * ms.toNat) := by
  rw [ticks, toNat_mulSaturating, UInt32.toNat_div, Nat.min_comm]
  rfl

/-- What the count falls short of: the part of a tick that each millisecond has beyond its whole ones. -/
theorem mul_eq_ticks_add (hfits : sysClkHz.toNat / 1000 * ms.toNat < UInt32.size) :
    sysClkHz.toNat * ms.toNat = 1000 * (ticks sysClkHz ms).toNat + sysClkHz.toNat % 1000 * ms.toNat := by
  rw [toNat_ticks, Nat.min_eq_right (Nat.le_sub_one_of_lt hfits), ← Nat.mul_assoc, ← Nat.add_mul, Nat.div_add_mod]

theorem ticks_le (sysClkHz ms : UInt32) : 1000 * (ticks sysClkHz ms).toNat ≤ sysClkHz.toNat * ms.toNat := by
  calc 1000 * (ticks sysClkHz ms).toNat
      ≤ 1000 * (sysClkHz.toNat / 1000 * ms.toNat) :=
        Nat.mul_le_mul_left 1000 (toNat_ticks sysClkHz ms ▸ Nat.min_le_right _ _)
    _ = 1000 * (sysClkHz.toNat / 1000) * ms.toNat := (Nat.mul_assoc ..).symm
    _ ≤ sysClkHz.toNat * ms.toNat := Nat.mul_le_mul_right _ (Nat.mul_div_le _ _)

theorem le_ticks (hfits : sysClkHz.toNat / 1000 * ms.toNat < UInt32.size) :
    sysClkHz.toNat * ms.toNat ≤ 1000 * (ticks sysClkHz ms).toNat + 999 * ms.toNat := by
  have hpart : sysClkHz.toNat % 1000 ≤ 999 := Nat.le_of_lt_succ (Nat.mod_lt _ (by decide))
  rw [mul_eq_ticks_add hfits]
  exact Nat.add_le_add_left (Nat.mul_le_mul_right _ hpart) _

/-- From every device and with every budget: the delay loads its count and then latches and reads until it has read a 0, or
it is halted before that, by a refusal or for want of budget. The count is the exact one but for what is cut. -/
theorem delay_counts_down {σ : Type} [Device σ] (sysClkHz ms : UInt32) (s : σ) (b : Nat) :
    let o := (delay sysClkHz ms : Driver σ Unit).run s b
    let count := (ticks sysClkHz ms).toNat
    (∃ counts : List UInt32, (∀ n ∈ counts, n ≠ 0) ∧
      (o.result = .ok () ∧ o.accesses = started sysClkHz ms ++ (counts ++ [0]).flatMap latched ∨
        ∃ e, o.result = .error e ∧ o.accesses <+: started sysClkHz ms ++ counts.flatMap latched ∧
          (e = .outOfBudget → o.accesses.length = b))) ∧
    count = min (UInt32.size - 1) (sysClkHz.toNat / 1000 * ms.toNat) ∧
    1000 * count ≤ sysClkHz.toNat * ms.toNat ∧
    (sysClkHz.toNat / 1000 * ms.toNat < UInt32.size → sysClkHz.toNat * ms.toNat ≤ 1000 * count + 999 * ms.toNat) := by
  intro o count
  refine ⟨?_, toNat_ticks sysClkHz ms, ticks_le sysClkHz ms, le_ticks⟩
  have hruns : (delay sysClkHz ms : Driver σ Unit).Runs o.result o.accesses := ⟨s, b, rfl, rfl⟩
  rcases hruns.delay with ⟨hok, counts, hcounts, hxs⟩ | ⟨e, herror, counts, hcounts, hxs⟩
  · exact ⟨counts, hcounts, .inl ⟨hok, hxs⟩⟩
  · refine ⟨counts, hcounts, .inr ⟨e, herror, hxs, ?_⟩⟩
    rintro rfl
    have hleft : o.budget = 0 := Driver.UsesUp.delay sysClkHz ms s b herror
    have hspent : o.budget + o.accesses.length = b := Driver.Metered.compositional.delay sysClkHz ms s b
    rwa [hleft, Nat.zero_add] at hspent

/-- Two milliseconds of a clock of nearly 100 MHz, on a timer that is read twice before it is at 0. -/
theorem delay_counts_down_cut :
    let o := (delay 99999999 2 : Driver Scripted Unit).run { timerValues := [7, 3, 0] } 100
    (o.result = .ok () ∧ ∃ counts : List UInt32, (∀ n ∈ counts, n ≠ 0) ∧
      o.accesses = started 99999999 2 ++ (counts ++ [0]).flatMap latched) ∧
    99999999 / 1000 * 2 < UInt32.size ∧ (ticks 99999999 2).toNat = 199998 ∧ 99999999 * 2 ≤ 1000 * 199998 + 999 * 2 := by
  intro o
  have hends : Driver.ends (delay 99999999 2) ({ timerValues := [7, 3, 0] } : Scripted) 100 (· = ()) := by
    decide +kernel
  obtain ⟨_, -, hok⟩ := Driver.exists_of_ends hends
  obtain ⟨⟨counts, hcounts, hrun⟩, hcount, -, hcut⟩ :=
    delay_counts_down 99999999 2 ({ timerValues := [7, 3, 0] } : Scripted) 100
  rw [hok] at hrun
  obtain ⟨-, hxs⟩ | ⟨_, ⟨⟩, -⟩ := hrun
  rw [hcount] at hcut
  exact ⟨⟨hok, counts, hcounts, hxs⟩, by decide, hcount, hcut (by decide)⟩

end Timer

end SecureDigital

import SecureDigital.Proofs.Confined

/-!
# Waiting on the timer

A delay that returns has loaded the timer once, and then latched and read the count until it was 0 (`Timer.Elapsed`). One
that is halted has made a part of these accesses, and has read no 0 (`Timer.Elapsing`).
-/

namespace SecureDigital

variable {σ : Type} [Device σ]

namespace Timer

/-- The writes that load the timer and start it: the ticks of as many milliseconds, in whole ticks a millisecond, or the
largest word. -/
def started (sysClkHz ms : UInt32) : List Access :=
  [.write .timerEnable 0, .write .timerReload 0,
    .write .timerLoad (.ofNat (min (UInt32.size - 1) (sysClkHz.toNat / 1000 * ms.toNat))), .write .timerEnable 1]

theorem ticks_eq (sysClkHz ms : UInt32) :
    ticks sysClkHz ms = .ofNat (min (UInt32.size - 1) (sysClkHz.toNat / 1000 * ms.toNat)) := by
  rw [ticks, mulSaturating, UInt32.toNat_div, Nat.min_comm]
  rfl

def latched (count : UInt32) : List Access := [.write .timerUpdate 1, .read .timerValue count]

/-- A whole delay. -/
def Elapsed (sysClkHz ms : UInt32) (xs : List Access) : Prop :=
  ∃ counts : List UInt32, (∀ n ∈ counts, n ≠ 0) ∧ xs = started sysClkHz ms ++ (counts ++ [0]).flatMap latched

/-- A delay up to where it is halted: no count it has read was 0. -/
def Elapsing (sysClkHz ms : UInt32) (xs : List Access) : Prop :=
  ∃ counts : List UInt32, (∀ n ∈ counts, n ≠ 0) ∧ xs <+: started sysClkHz ms ++ counts.flatMap latched

theorem Elapsed.isTimer {sysClkHz ms : UInt32} {xs : List Access} (h : Elapsed sysClkHz ms xs) : ∀ a ∈ xs, a.isTimer := by
  obtain ⟨counts, -, rfl⟩ := h
  have hstarted : ∀ a ∈ started sysClkHz ms, a.isTimer := by simp [started, Access.isTimer]
  have hlatched (n : UInt32) : ∀ a ∈ latched n, a.isTimer := by simp [latched, Access.isTimer]
  intro a ha
  rcases List.mem_append.1 ha with ha | ha
  · exact hstarted a ha
  · obtain ⟨n, -, ha⟩ := List.mem_flatMap.1 ha
    exact hlatched n a ha

theorem delay_eq (sysClkHz ms : UInt32) : (delay sysClkHz ms : Driver σ Unit) = (do
    [(ControlRegister.timerEnable, 0), (.timerReload, 0), (.timerLoad, ticks sysClkHz ms), (.timerEnable, 1)].forM
      fun w => Driver.write w.1 w.2
    awaitZero) := by
  simp [delay]

end Timer

open Timer

namespace Driver.Runs

variable {xs : List Access}

theorem latched {r : Except Halt (Option Unit)}
    (h : (do
      write .timerUpdate 1
      let count ← read .timerValue
      pure (if count = 0 then some () else none) : Driver σ (Option Unit)).Runs r xs) :
    (∃ e, r = .error e ∧ xs <+: [.write .timerUpdate 1]) ∨
      ∃ count, r = .ok (if count = 0 then some () else none) ∧ xs = Timer.latched count := by
  rcases h.of_write_bind with ⟨e, rfl, -, hxs⟩ | ⟨ys, rfl, hread⟩
  · exact .inl ⟨e, rfl, hxs⟩
  rcases hread.of_read_bind with ⟨rfl, rfl⟩ | ⟨count, zs, rfl, hpure⟩
  · exact .inl ⟨_, rfl, List.prefix_rfl⟩
  · obtain ⟨rfl, rfl⟩ := hpure.of_pure
    exact .inr ⟨count, rfl, rfl⟩

/-- The wait is over with the first count of 0; where it is halted there was none. -/
theorem awaitZero {r : Except Halt Unit} (h : (Timer.awaitZero : Driver σ Unit).Runs r xs) :
    ∃ counts : List UInt32, (∀ n ∈ counts, n ≠ 0) ∧
      (r = .ok () ∧ xs = (counts ++ [0]).flatMap Timer.latched ∨
        ∃ e, r = .error e ∧ xs <+: counts.flatMap Timer.latched) := by
  obtain ⟨idle, hidle, ys, rfl, hlast⟩ := h.of_repeatUntil
  obtain ⟨counts, rfl, hcounts⟩ :
      ∃ counts : List UInt32, idle = counts.map Timer.latched ∧ ∀ n ∈ counts, n ≠ 0 := by
    refine exists_eq_map_of_forall_mem fun zs hzs => ?_
    obtain ⟨_, ⟨⟩, -⟩ | ⟨count, hr, rfl⟩ := (hidle zs hzs).latched
    refine ⟨count, rfl, ?_⟩
    rintro rfl
    cases hr
  rw [← List.flatMap_def]
  rcases hlast with ⟨e, rfl, hlast⟩ | ⟨_, rfl, hlast⟩
  · -- A round that is halted may be taken for the start of one more idle round.
    have hys : ys <+: Timer.latched 1 := by
      rcases hlast with rfl | hlast
      · exact List.nil_prefix
      · obtain ⟨_, -, hys⟩ | ⟨_, ⟨⟩, -⟩ := hlast.latched
        exact hys.trans (List.prefix_append [_] [_])
    refine ⟨counts ++ [1], ?_, .inr ⟨e, rfl, ?_⟩⟩
    · exact List.forall_mem_append.2 ⟨hcounts, List.forall_mem_singleton.2 (by decide)⟩
    · rw [List.flatMap_append, List.flatMap_singleton]
      exact (List.prefix_append_right_inj _).2 hys
  · obtain ⟨_, ⟨⟩, -⟩ | ⟨count, hr, rfl⟩ := hlast.latched
    split at hr
    case isTrue hzero =>
      subst hzero
      exact ⟨counts, hcounts, .inl ⟨rfl, by rw [List.flatMap_append, List.flatMap_singleton]⟩⟩
    case isFalse => cases hr

theorem delay {sysClkHz ms : UInt32} {r : Except Halt Unit}
    (h : (Timer.delay sysClkHz ms : Driver σ Unit).Runs r xs) :
    (r = .ok () ∧ Elapsed sysClkHz ms xs) ∨ ∃ e, r = .error e ∧ Elapsing sysClkHz ms xs := by
  rw [delay_eq, ticks_eq] at h
  rcases h.bind with ⟨e, rfl, hload⟩ | ⟨_, ys, zs, rfl, hload, hwait⟩
  · obtain ⟨⟨⟩, -⟩ | ⟨_, -, hxs⟩ := hload.of_writes
    exact .inr ⟨e, rfl, [], nofun, hxs.trans (List.prefix_append _ _)⟩
  · obtain ⟨-, rfl⟩ | ⟨_, ⟨⟩, -⟩ := hload.of_writes
    obtain ⟨counts, hcounts, ⟨rfl, rfl⟩ | ⟨e, rfl, hzs⟩⟩ := hwait.awaitZero
    · exact .inl ⟨rfl, counts, hcounts, rfl⟩
    · exact .inr ⟨e, rfl, counts, hcounts, (List.prefix_append_right_inj _).2 hzs⟩

theorem elapsed {sysClkHz ms : UInt32} (h : (Timer.delay sysClkHz ms : Driver σ Unit).Runs (.ok ()) xs) :
    Elapsed sysClkHz ms xs := by
  obtain ⟨-, helapsed⟩ | ⟨_, ⟨⟩, -⟩ := h.delay
  exact helapsed

end Driver.Runs

end SecureDigital

import SecureDigital.Proofs.Clock.FirstNearest

/-!
# The nearest ratio as the target moves

Of two ratios the faster one is the nearer from the middle between their frequencies on, and the slower one up to there
(`noFarther_iff_of_faster`, `noFarther_iff_of_slower`). So the search never moves back to a slower ratio while the target
goes up, whatever it does with a target that lies in the middle: there it answers once. Nor does it go beyond a ratio that
lies on the far side of the target (`nearest_le_of_le`, `nearest_ge_of_ge`).
-/

namespace SecureDigital.Ratio

variable {khz khz' : Nat} {r s : Ratio}

section Middle

variable (h : s.multiplier * r.divider < r.multiplier * s.divider)

include h

theorem noFarther_iff_of_faster : NoFarther khz r s ↔
    (r.multiplier * s.divider + s.multiplier * r.divider) * unitKhz ≤ 2 * (khz * (r.divider * s.divider)) := by
  rw [NoFarther, distance_mul_divider, distance_mul_divider, Nat.mul_comm s.divider r.divider]
  generalize khz * (r.divider * s.divider) = target
  simp only [unitKhz]
  omega

theorem noFarther_iff_of_slower : NoFarther khz s r ↔
    2 * (khz * (r.divider * s.divider)) ≤ (r.multiplier * s.divider + s.multiplier * r.divider) * unitKhz := by
  rw [NoFarther, distance_mul_divider, distance_mul_divider, Nat.mul_comm s.divider r.divider]
  generalize khz * (r.divider * s.divider) = target
  simp only [unitKhz]
  omega

/-- A target that the faster ratio is nearer to is no lower than one that the slower ratio is nearer to. -/
theorem le_of_noFarther (hr : 0 < r.divider) (hs : 0 < s.divider) (hfaster : NoFarther khz r s)
    (hslower : NoFarther khz' s r) : khz' ≤ khz := by
  have hmiddle : 2 * (khz' * (r.divider * s.divider)) ≤ 2 * (khz * (r.divider * s.divider)) :=
    ((noFarther_iff_of_slower h).1 hslower).trans ((noFarther_iff_of_faster h).1 hfaster)
  have hscaled : khz' * (r.divider * s.divider) ≤ khz * (r.divider * s.divider) :=
    Nat.le_of_mul_le_mul_left hmiddle (by decide)
  exact Nat.le_of_mul_le_mul_right hscaled (Nat.mul_pos hr hs)

end Middle

theorem nearest_mono (h : khz ≤ khz') :
    (nearest khz).multiplier * (nearest khz').divider ≤ (nearest khz').multiplier * (nearest khz).divider := by
  rcases Nat.eq_or_lt_of_le h with rfl | hlt
  · exact Nat.le_refl _
  have hmem := nearest_mem khz
  have hmem' := nearest_mem khz'
  refine Nat.le_of_not_lt fun hfaster => Nat.not_le_of_lt hlt ?_
  exact le_of_noFarther hfaster (divider_pos hmem) (divider_pos hmem') (nearest_noFarther khz hmem')
    (nearest_noFarther khz' hmem)

/-- The ratio follows the target upwards, and stays on the target's side of each ratio in range; so it meets the target
where one of them does. -/
theorem nearest_keeps_order :
    (∀ khz khz' : Nat, khz ≤ khz' →
      (nearest khz).multiplier * (nearest khz').divider ≤ (nearest khz').multiplier * (nearest khz).divider) ∧
    ∀ (khz : Nat) (r : Ratio), r.InRange →
      (khz * r.divider ≤ unitKhz * r.multiplier →
        (nearest khz).multiplier * r.divider ≤ r.multiplier * (nearest khz).divider) ∧
      (unitKhz * r.multiplier ≤ khz * r.divider →
        r.multiplier * (nearest khz).divider ≤ (nearest khz).multiplier * r.divider) ∧
      (khz * r.divider = unitKhz * r.multiplier →
        (nearest khz).multiplier * r.divider = r.multiplier * (nearest khz).divider) := by
  refine ⟨fun _ _ => nearest_mono, fun khz r hrange => ?_⟩
  have hcandidate : r ∈ candidates := mem_candidates.2 hrange
  rw [Nat.mul_comm unitKhz]
  exact ⟨nearest_le_of_le hcandidate, nearest_ge_of_ge hcandidate, fun h => nearest_eq_of_reachable hcandidate h.symm⟩

/-- One kHz below 25 MHz the ratio is not above 5 to 2, and at 25 MHz it meets 5 to 2. -/
theorem nearest_keeps_order_below :
    let r : Ratio := ⟨5, 2⟩
    24999 ≤ 25000 ∧ r.InRange ∧ 24999 * r.divider ≤ unitKhz * r.multiplier ∧ 25000 * r.divider = unitKhz * r.multiplier ∧
      (nearest 24999).multiplier * (nearest 25000).divider ≤ (nearest 25000).multiplier * (nearest 24999).divider ∧
      (nearest 24999).multiplier * r.divider ≤ r.multiplier * (nearest 24999).divider ∧
      (nearest 25000).multiplier * r.divider = r.multiplier * (nearest 25000).divider := by
  intro r
  have hrange : r.InRange := by unfold InRange; decide
  have hbelow : 24999 * r.divider ≤ unitKhz * r.multiplier := by decide
  have hmeets : 25000 * r.divider = unitKhz * r.multiplier := by decide
  obtain ⟨hmono, hsides⟩ := nearest_keeps_order
  exact ⟨by decide, hrange, hbelow, hmeets, hmono 24999 25000 (by decide), (hsides 24999 r hrange).1 hbelow,
    (hsides 25000 r hrange).2.2 hmeets⟩

end SecureDigital.Ratio

import SecureDigital.Clock.Ratio

/-!
# The nearest ratio

`NoFarther khz r s`: the frequency of `r` is at most as far from `khz` as that of `s`, multiplied out. It is transitive
through a ratio with a positive divider, so the search keeps the best ratio that it has seen, and `nearest` is no
farther than any candidate. It may lie above `khz`, but never beyond a frequency that a candidate meets exactly
(`nearest_le_of_reachable`).
-/

namespace SecureDigital.Ratio

variable {khz : Nat} {r s t : Ratio}

def NoFarther (khz : Nat) (r s : Ratio) : Prop :=
  r.distance khz * s.divider ≤ s.distance khz * r.divider

theorem nearer_iff : r.nearer khz s ↔ ¬ NoFarther khz s r := by
  simp [nearer, NoFarther]

namespace NoFarther

theorem refl (khz : Nat) (r : Ratio) : NoFarther khz r r := Nat.le_refl _

theorem trans (hs : 0 < s.divider) (hrs : NoFarther khz r s) (hst : NoFarther khz s t) : NoFarther khz r t := by
  unfold NoFarther at *
  refine Nat.le_of_mul_le_mul_right ?_ hs
  calc r.distance khz * t.divider * s.divider = r.distance khz * s.divider * t.divider := Nat.mul_right_comm ..
    _ ≤ s.distance khz * r.divider * t.divider := Nat.mul_le_mul_right _ hrs
    _ = s.distance khz * t.divider * r.divider := Nat.mul_right_comm ..
    _ ≤ t.distance khz * s.divider * r.divider := Nat.mul_le_mul_right _ hst
    _ = t.distance khz * r.divider * s.divider := Nat.mul_right_comm ..

end NoFarther

/-- One step of the search: the better of the two ratios, the one before if they are equally far. -/
theorem noFarther_step (khz : Nat) (r best : Ratio) :
    NoFarther khz (if r.nearer khz best then r else best) r ∧
      NoFarther khz (if r.nearer khz best then r else best) best := by
  split
  · next h => exact ⟨.refl khz r, Nat.le_of_not_le (nearer_iff.1 h)⟩
  · next h => exact ⟨Classical.not_not.1 (mt nearer_iff.2 h), .refl khz best⟩

theorem foldl_nearer_mem {l m : List Ratio} {best : Ratio} (hbest : best ∈ m) (hl : ∀ r ∈ l, r ∈ m) :
    l.foldl (fun best r => if r.nearer khz best then r else best) best ∈ m := by
  induction l generalizing best with
  | nil => exact hbest
  | cons s l ih =>
    obtain ⟨hs, hl⟩ := List.forall_mem_cons.1 hl
    rw [List.foldl_cons]
    refine ih ?_ hl
    split
    · exact hs
    · exact hbest

/-- The search ends with a ratio that is no farther than any that it has seen. -/
theorem foldl_nearer_noFarther {l : List Ratio} {best : Ratio} (hbest : 0 < best.divider)
    (hl : ∀ r ∈ l, 0 < r.divider) :
    ∀ r ∈ best :: l, NoFarther khz (l.foldl (fun best r => if r.nearer khz best then r else best) best) r := by
  induction l generalizing best with
  | nil =>
    intro r hr
    rw [List.mem_singleton.1 hr]
    exact .refl khz best
  | cons s l ih =>
    obtain ⟨hs, hl⟩ := List.forall_mem_cons.1 hl
    obtain ⟨hle_s, hle_best⟩ := noFarther_step khz s best
    have hnext : 0 < (if s.nearer khz best then s else best).divider := by
      split
      · exact hs
      · exact hbest
    have hle := ih hnext hl
    have hle_next := hle _ List.mem_cons_self
    intro r hr
    rw [List.foldl_cons]
    rcases List.mem_cons.1 hr with rfl | hr
    · exact hle_next.trans hnext hle_best
    rcases List.mem_cons.1 hr with rfl | hr
    · exact hle_next.trans hnext hle_s
    · exact hle r (List.mem_cons_of_mem _ hr)

theorem divider_pos (h : r ∈ candidates) : 0 < r.divider := (mem_candidates.1 h).1.1

theorem nearest_mem (khz : Nat) : nearest khz ∈ candidates := foldl_nearer_mem first_mem fun _ h => h

theorem nearest_noFarther (khz : Nat) (h : r ∈ candidates) : NoFarther khz (nearest khz) r :=
  foldl_nearer_noFarther (by decide) (fun _ => divider_pos) r (List.mem_cons_of_mem first h)

/-! ### Sides of the target -/

/-- The bus frequency of the ratio is at most `khz`. -/
def AtMost (r : Ratio) (khz : Nat) : Prop := unitKhz * r.multiplier ≤ khz * r.divider

/-- Distances over a common denominator. -/
theorem distance_mul_divider (khz : Nat) (r s : Ratio) : r.distance khz * s.divider =
    (r.multiplier * s.divider * unitKhz - khz * (r.divider * s.divider)) +
      (khz * (r.divider * s.divider) - r.multiplier * s.divider * unitKhz) := by
  have hm : r.multiplier * unitKhz * s.divider = r.multiplier * s.divider * unitKhz := Nat.mul_right_comm ..
  have hd : r.divider * khz * s.divider = khz * (r.divider * s.divider) := by ac_rfl
  rw [distance, Nat.add_mul, Nat.sub_mul, Nat.sub_mul, hm, hd]

/-- The nearest ratio does not go beyond a candidate above the target. -/
theorem nearest_le_of_le (hr : r ∈ candidates) (h : khz * r.divider ≤ r.multiplier * unitKhz) :
    (nearest khz).multiplier * r.divider ≤ r.multiplier * (nearest khz).divider := by
  have hle := nearest_noFarther khz hr
  generalize nearest khz = s at *
  rw [NoFarther, distance_mul_divider, distance_mul_divider, Nat.mul_comm r.divider] at hle
  have hT : khz * (s.divider * r.divider) ≤ r.multiplier * s.divider * unitKhz :=
    calc khz * (s.divider * r.divider) = khz * r.divider * s.divider := by ac_rfl
      _ ≤ r.multiplier * unitKhz * s.divider := Nat.mul_le_mul_right _ h
      _ = r.multiplier * s.divider * unitKhz := Nat.mul_right_comm ..
  -- If it did, the candidate would lie between the target and the nearest ratio.
  simp only [unitKhz] at hle hT
  omega

/-- The nearest ratio does not go beyond a candidate below the target. -/
theorem nearest_ge_of_ge (hr : r ∈ candidates) (h : r.multiplier * unitKhz ≤ khz * r.divider) :
    r.multiplier * (nearest khz).divider ≤ (nearest khz).multiplier * r.divider := by
  have hle := nearest_noFarther khz hr
  generalize nearest khz = s at *
  rw [NoFarther, distance_mul_divider, distance_mul_divider, Nat.mul_comm r.divider] at hle
  have hT : r.multiplier * s.divider * unitKhz ≤ khz * (s.divider * r.divider) :=
    calc r.multiplier * s.divider * unitKhz = r.multiplier * unitKhz * s.divider := Nat.mul_right_comm ..
      _ ≤ khz * r.divider * s.divider := Nat.mul_le_mul_right _ h
      _ = khz * (s.divider * r.divider) := by ac_rfl
  simp only [unitKhz] at hle hT
  omega

/-- A frequency that a candidate meets is not exceeded for the sake of a target below it. -/
theorem nearest_le_of_reachable {limit : Nat} (hr : r ∈ candidates)
    (hreach : r.multiplier * unitKhz = limit * r.divider) (h : khz ≤ limit) : (nearest khz).AtMost limit := by
  have hle := nearest_le_of_le hr (hreach ▸ Nat.mul_le_mul_right _ h)
  generalize nearest khz = s at *
  refine Nat.le_of_mul_le_mul_right ?_ (divider_pos hr)
  calc unitKhz * s.multiplier * r.divider = s.multiplier * r.divider * unitKhz := by ac_rfl
    _ ≤ r.multiplier * s.divider * unitKhz := Nat.mul_le_mul_right _ hle
    _ = r.multiplier * unitKhz * s.divider := Nat.mul_right_comm ..
    _ = limit * s.divider * r.divider := by rw [hreach, Nat.mul_right_comm]

/-- The nearest ratio may lie above the target. -/
theorem not_atMost_nearest : ¬ (nearest 24999).AtMost 24999 := by
  have hcandidate : (⟨5, 2⟩ : Ratio) ∈ candidates := mem_candidates.2 (by decide)
  have hle := nearest_noFarther 24999 hcandidate
  have hmem := mem_candidates.1 (nearest_mem 24999)
  generalize nearest 24999 = s at *
  obtain ⟨m, d⟩ := s
  intro hbelow
  simp only [AtMost, NoFarther, distance, unitKhz] at hle hbelow hmem
  -- Times the divider, it would lie `t` times 5 MHz below 25 MHz.
  obtain ⟨t, ht⟩ : ∃ t, 5 * d = 2 * m + t := ⟨5 * d - 2 * m, by omega⟩
  rcases Nat.eq_zero_or_pos t with rfl | hpos
  · omega
  · omega

/-- A target that a candidate meets is met. -/
theorem nearest_eq_of_reachable (hr : r ∈ candidates) (hreach : r.multiplier * unitKhz = khz * r.divider) :
    (nearest khz).multiplier * r.divider = r.multiplier * (nearest khz).divider :=
  Nat.le_antisymm (nearest_le_of_le hr (Nat.le_of_eq hreach.symm)) (nearest_ge_of_ge hr (Nat.le_of_eq hreach))

theorem nearest_of_slow (h : khz ≤ 156) : nearest khz = ⟨2, 128⟩ := by
  have hslowest : (⟨2, 128⟩ : Ratio) ∈ candidates := mem_candidates.2 (by decide)
  have hle := @nearest_le_of_le khz _ hslowest (by simp only [unitKhz]; omega)
  have hmem := mem_candidates.1 (nearest_mem khz)
  generalize nearest khz = s at *
  obtain ⟨m, d⟩ := s
  simp only [mk.injEq] at hle hmem ⊢
  omega

theorem nearest_of_fast (h : 1280000 ≤ khz) : nearest khz = ⟨128, 1⟩ := by
  have hfastest : (⟨128, 1⟩ : Ratio) ∈ candidates := mem_candidates.2 (by decide)
  have hge := @nearest_ge_of_ge khz _ hfastest (by simp only [unitKhz]; omega)
  have hmem := mem_candidates.1 (nearest_mem khz)
  generalize nearest khz = s at *
  obtain ⟨m, d⟩ := s
  simp only [mk.injEq] at hge hmem ⊢
  omega

end SecureDigital.Ratio

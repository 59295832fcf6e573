import Mathlib.Algebra.Order.Field.Rat
import Mathlib.Algebra.Order.Field.Basic
import SecureDigital.Proofs.Clock.Nearest

/-!
# The first of the nearest ratios

`error khz r` is the distance of `r` from `khz` as an exact fraction, which `NoFarther` compares multiplied out
(`error_le_error_iff`). The search ends with a ratio that no candidate beats, and, as it only moves to a ratio that is
strictly nearer, with the first such ratio in the order in which it comes to them (`exists_search_eq`). That order is
`Precedes`: by divider, then by multiplier.

A comparison multiplies the wanted frequency by two dividers, so 64 bits hold every product (`products`).
-/

namespace SecureDigital.Ratio

variable {khz : Nat} {r s : Ratio}

/-- The distance of the ratio from the wanted one, which is `khz` to `unitKhz`. -/
def error (khz : Nat) (r : Ratio) : ℚ := |(r.multiplier : ℚ) / r.divider - (khz : ℚ) / unitKhz|

/-- Whether the PLL has the ratio. -/
def InRange (r : Ratio) : Prop := (1 ≤ r.divider ∧ r.divider ≤ 128) ∧ 2 ≤ r.multiplier ∧ r.multiplier ≤ 128

/-- The search comes to `r` before `s`. -/
def Precedes (r s : Ratio) : Prop := r.divider < s.divider ∨ r.divider = s.divider ∧ r.multiplier < s.multiplier

/-- The best ratio so far when the search has gone on from `best` over the ratios of `seen`. -/
def search (khz : Nat) (best : Ratio) (seen : List Ratio) : Ratio :=
  seen.foldl (fun best r => if r.nearer khz best then r else best) best

/-- The products that the search forms to compare `r` with `best`. -/
def products (khz : Nat) (r best : Ratio) : List Nat :=
  [r.multiplier * unitKhz, r.divider * khz, best.multiplier * unitKhz, best.divider * khz,
    r.distance khz * best.divider, best.distance khz * r.divider]

/-! ### The distance as a fraction -/

theorem cast_distance (khz : Nat) (r : Ratio) :
    (r.distance khz : ℚ) = |(r.multiplier : ℚ) * unitKhz - r.divider * khz| := by
  unfold distance
  rcases Nat.le_total (r.multiplier * unitKhz) (r.divider * khz) with h | h
  · have hcast : ((r.multiplier * unitKhz : Nat) : ℚ) ≤ ((r.divider * khz : Nat) : ℚ) := Nat.cast_le.2 h
    push_cast at hcast
    rw [Nat.sub_eq_zero_of_le h, Nat.zero_add, Nat.cast_sub h, abs_of_nonpos (sub_nonpos.2 hcast)]
    push_cast
    exact (neg_sub _ _).symm
  · have hcast : ((r.divider * khz : Nat) : ℚ) ≤ ((r.multiplier * unitKhz : Nat) : ℚ) := Nat.cast_le.2 h
    push_cast at hcast
    rw [Nat.sub_eq_zero_of_le h, Nat.add_zero, Nat.cast_sub h, abs_of_nonneg (sub_nonneg.2 hcast)]
    push_cast
    rfl

theorem error_eq (hr : 0 < r.divider) : error khz r = r.distance khz / (r.divider * unitKhz) := by
  have hd : (0 : ℚ) < r.divider := Nat.cast_pos.2 hr
  have hu : (0 : ℚ) < unitKhz := Nat.cast_pos.2 (by decide)
  rw [error, cast_distance, div_sub_div _ _ hd.ne' hu.ne', abs_div, abs_of_pos (mul_pos hd hu)]

theorem error_le_error_iff (hr : 0 < r.divider) (hs : 0 < s.divider) :
    error khz r ≤ error khz s ↔ NoFarther khz r s := by
  have hrd : (0 : ℚ) < r.divider := Nat.cast_pos.2 hr
  have hsd : (0 : ℚ) < s.divider := Nat.cast_pos.2 hs
  have hu : (0 : ℚ) < unitKhz := Nat.cast_pos.2 (by decide)
  rw [error_eq hr, error_eq hs, div_le_div_iff₀ (mul_pos hrd hu) (mul_pos hsd hu), ← mul_assoc, ← mul_assoc,
    mul_le_mul_iff_left₀ hu, NoFarther]
  exact_mod_cast Iff.rfl

/-! ### The order of the search -/

theorem pairwise_candidates : candidates.Pairwise Precedes := by
  unfold candidates
  rw [List.pairwise_flatMap]
  constructor
  · intro d _
    rw [List.pairwise_map]
    exact (List.pairwise_lt_range' ..).imp fun h => .inr ⟨rfl, h⟩
  · refine (List.pairwise_lt_range' ..).imp fun h r hr s hs => .inl ?_
    obtain ⟨_, -, rfl⟩ := List.mem_map.1 hr
    obtain ⟨_, -, rfl⟩ := List.mem_map.1 hs
    exact h

theorem nearest_eq_search (khz : Nat) : nearest khz = search khz first candidates := rfl

theorem search_cons (khz : Nat) (best s : Ratio) (l : List Ratio) :
    search khz best (s :: l) = search khz (if s.nearer khz best then s else best) l :=
  rfl

theorem search_pos {l : List Ratio} {best : Ratio} (h : ∀ r ∈ best :: l, 0 < r.divider) :
    0 < (search khz best l).divider :=
  h _ (foldl_nearer_mem List.mem_cons_self fun _ => List.mem_cons_of_mem best)

/-- The search ends with a ratio that is strictly nearer than all before it. -/
theorem exists_search_eq (khz : Nat) {l : List Ratio} {best : Ratio} (h : ∀ r ∈ best :: l, 0 < r.divider) :
    ∃ before after, best :: l = before ++ search khz best l :: after ∧
      ∀ r ∈ before, ¬ NoFarther khz r (search khz best l) := by
  induction l generalizing best with
  | nil => exact ⟨[], [], rfl, nofun⟩
  | cons s l ih =>
    obtain ⟨hbest, hl⟩ := List.forall_mem_cons.1 h
    obtain ⟨hs, htail⟩ := List.forall_mem_cons.1 hl
    rw [search_cons]
    split
    case isTrue hnearer =>
      obtain ⟨before, after, hsplit, hfarther⟩ := ih hl
      have hend : NoFarther khz (search khz s l) s := foldl_nearer_noFarther hs htail s List.mem_cons_self
      refine ⟨best :: before, after, congrArg (best :: ·) hsplit, List.forall_mem_cons.2 ⟨fun hle => ?_, hfarther⟩⟩
      exact nearer_iff.1 hnearer (hle.trans (search_pos hl) hend)
    case isFalse hnearer =>
      have hkept : NoFarther khz best s := Classical.not_not.1 (mt nearer_iff.2 hnearer)
      obtain ⟨before, after, hsplit, hfarther⟩ := ih (List.forall_mem_cons.2 ⟨hbest, htail⟩)
      cases before with
      | nil =>
        obtain ⟨hend, rfl⟩ := List.cons.inj hsplit
        exact ⟨[], s :: l, by rw [← hend, List.nil_append], nofun⟩
      | cons b before =>
        rw [List.cons_append, List.cons.injEq] at hsplit
        obtain ⟨rfl, hsplit⟩ := hsplit
        obtain ⟨hfirst, hbefore⟩ := List.forall_mem_cons.1 hfarther
        refine ⟨best :: s :: before, after, congrArg (best :: s :: ·) hsplit, ?_⟩
        -- What did not beat the best so far does not beat what beats it.
        exact List.forall_mem_cons.2 ⟨hfirst, List.forall_mem_cons.2 ⟨fun hle => hfirst (hkept.trans hs hle), hbefore⟩⟩

/-- Among the candidates that are as near, the search has come to its own first. -/
theorem precedes_of_noFarther (hs : s ∈ candidates) (h : NoFarther khz s (nearest khz)) :
    s = nearest khz ∨ (nearest khz).Precedes s := by
  have hpos : ∀ r ∈ first :: candidates, 0 < r.divider := List.forall_mem_cons.2 ⟨by decide, fun _ => divider_pos⟩
  obtain ⟨before, after, hsplit, hfarther⟩ := exists_search_eq khz hpos
  rw [← nearest_eq_search] at hsplit hfarther
  have hstart := mem_candidates.1 hs
  generalize nearest khz = best at *
  cases before with
  | nil =>
    -- The search has never moved, and its start precedes all others.
    obtain ⟨rfl, -⟩ := List.cons.inj hsplit
    obtain ⟨m, d⟩ := s
    simp only [first, Precedes, mk.injEq] at hstart ⊢
    omega
  | cons b before =>
    rw [List.cons_append, List.cons.injEq] at hsplit
    obtain ⟨-, hsplit⟩ := hsplit
    have horder := pairwise_candidates
    rw [hsplit, List.pairwise_append, List.pairwise_cons] at horder
    rw [hsplit] at hs
    rcases List.mem_append.1 hs with hs | hs
    · exact absurd h (hfarther s (List.mem_cons_of_mem b hs))
    · rcases List.mem_cons.1 hs with rfl | hs
      · exact .inl rfl
      · exact .inr (horder.2.1.1 s hs)

/-- Among the candidates that meet the target, the search ends with the first. -/
theorem nearest_eq_of_first (hr : r ∈ candidates) (hreach : r.multiplier * unitKhz = khz * r.divider)
    (hfirst : ∀ s ∈ candidates, s.multiplier * r.divider = r.multiplier * s.divider → ¬ s.Precedes r) :
    nearest khz = r := by
  have hmet := nearest_eq_of_reachable hr hreach
  have hnone : r.distance khz = 0 := by
    rw [distance, hreach, Nat.mul_comm khz, Nat.sub_self]
  have hle : NoFarther khz r (nearest khz) := by
    rw [NoFarther, hnone, Nat.zero_mul]
    exact Nat.zero_le _
  rcases precedes_of_noFarther hr hle with heq | hbefore
  · exact heq.symm
  · exact absurd hbefore (hfirst _ (nearest_mem khz) hmet)

/-! ### The width of the search -/

theorem search_mem {seen : List Ratio} (h : ∀ r ∈ seen, r ∈ candidates) : search khz first seen ∈ candidates :=
  foldl_nearer_mem first_mem h

theorem distance_le (hr : r ∈ candidates) (hkhz : khz < UInt32.size) : r.distance khz ≤ 128 * UInt32.size := by
  obtain ⟨⟨-, hd⟩, -, hm⟩ := mem_candidates.1 hr
  have hm' : r.multiplier * unitKhz ≤ 128 * unitKhz := Nat.mul_le_mul_right _ hm
  have hd' : r.divider * khz ≤ 128 * UInt32.size := Nat.mul_le_mul hd (Nat.le_of_lt hkhz)
  simp only [distance, unitKhz, UInt32.size] at *
  omega

theorem product_lt (hr : r ∈ candidates) (hs : s ∈ candidates) (hkhz : khz < UInt32.size) :
    ∀ p ∈ products khz r s, p < UInt64.size := by
  obtain ⟨⟨-, hrd⟩, -, hrm⟩ := mem_candidates.1 hr
  obtain ⟨⟨-, hsd⟩, -, hsm⟩ := mem_candidates.1 hs
  have hlt {a b : Nat} (ha : a ≤ 128 * UInt32.size) (hb : b ≤ 128) : a * b < UInt64.size :=
    Nat.lt_of_le_of_lt (Nat.mul_le_mul ha hb) (by decide)
  have hclock {a : Nat} (ha : a ≤ 128) : a * khz < UInt64.size :=
    Nat.lt_of_le_of_lt (Nat.mul_le_mul ha (Nat.le_of_lt hkhz)) (by decide)
  have hunit {a : Nat} (ha : a ≤ 128) : a * unitKhz < UInt64.size :=
    Nat.lt_of_le_of_lt (Nat.mul_le_mul_right _ ha) (by decide)
  simp only [products, List.forall_mem_cons]
  exact ⟨hunit hrm, hclock hrd, hunit hsm, hclock hsd, hlt (distance_le hr hkhz) hsd, hlt (distance_le hs hkhz) hrd,
    nofun⟩

/-- The search ends in range, with a ratio that none in range beats and that comes first among those that are as near, and
each product that it forms on the way fits 64 bits. -/
theorem nearest_first_optimum (khz : UInt32) :
    (nearest khz.toNat).InRange ∧
      (∀ s : Ratio, s.InRange → ¬ error khz.toNat s < error khz.toNat (nearest khz.toNat) ∧
        (error khz.toNat s = error khz.toNat (nearest khz.toNat) →
          s = nearest khz.toNat ∨ (nearest khz.toNat).Precedes s)) ∧
      ∀ seen r rest, candidates = seen ++ r :: rest →
        ∀ p ∈ products khz.toNat r (search khz.toNat first seen), p < UInt64.size := by
  have hbest := nearest_mem khz.toNat
  refine ⟨mem_candidates.1 hbest, fun s hs => ?_, fun seen r rest hsplit => ?_⟩
  · have hcandidate := mem_candidates.2 hs
    have hle := (error_le_error_iff (divider_pos hbest) (divider_pos hcandidate)).2 (nearest_noFarther _ hcandidate)
    refine ⟨not_lt.2 hle, fun heq => precedes_of_noFarther hcandidate ?_⟩
    exact (error_le_error_iff (divider_pos hcandidate) (divider_pos hbest)).1 (le_of_eq heq)
  · have hseen : ∀ q ∈ seen ++ r :: rest, q ∈ candidates := fun q hq => hsplit ▸ hq
    rw [List.forall_mem_append, List.forall_mem_cons] at hseen
    exact product_lt hseen.2.1 (search_mem hseen.1) khz.toNat_lt

/-- Of the ratios that meet 25 MHz it is not 10 to 4, nor any other but the one with the smallest divider. -/
theorem nearest_first_optimum_meets :
    (⟨5, 2⟩ : Ratio).InRange ∧ (⟨10, 4⟩ : Ratio).InRange ∧ error 25000 ⟨10, 4⟩ = error 25000 ⟨5, 2⟩ ∧
      nearest 25000 = ⟨5, 2⟩ := by
  have hrange : (⟨5, 2⟩ : Ratio).InRange := by unfold InRange; decide
  have hequal : error 25000 ⟨10, 4⟩ = error 25000 ⟨5, 2⟩ := by
    refine le_antisymm ((error_le_error_iff ?_ ?_).2 ?_) ((error_le_error_iff ?_ ?_).2 ?_) <;>
      first | decide | unfold NoFarther; decide
  refine ⟨hrange, by unfold InRange; decide, hequal, ?_⟩
  obtain ⟨hbest, hoptimum, -⟩ := nearest_first_optimum 25000
  rw [show UInt32.toNat 25000 = 25000 from rfl] at hbest hoptimum
  generalize nearest 25000 = best at *
  obtain ⟨hnone, hfirst⟩ := hoptimum ⟨5, 2⟩ hrange
  have hpos : 0 < best.divider := hbest.1.1
  have hexact : NoFarther 25000 best ⟨5, 2⟩ := (error_le_error_iff hpos (by decide)).1 (not_lt.1 hnone)
  have hexact' : NoFarther 25000 ⟨5, 2⟩ best := by
    rw [NoFarther, show distance 25000 ⟨5, 2⟩ = 0 by decide, Nat.zero_mul]
    exact Nat.zero_le _
  have hmeets := hfirst (le_antisymm ((error_le_error_iff (by decide) hpos).2 hexact') (not_lt.1 hnone))
  obtain ⟨m, d⟩ := best
  simp only [NoFarther, distance, unitKhz, Precedes, InRange, mk.injEq] at hbest hexact hmeets ⊢
  omega

end SecureDigital.Ratio

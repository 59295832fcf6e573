/-!
# The bus clock's ratio

A PLL in front of a fixed divider gives the bus `10 MHz * multiplier / divider`. `Ratio.nearest`
searches every ratio the PLL has for the one nearest a wanted frequency. Distances to the frequency
are compared as exact fractions, multiplied out; among equals the first in `candidates` stays, the
one with the smallest divider and then the smallest multiplier.

The generator takes a counter as two half-counts in one word; `multiplierWord` and `dividerWord`
are those words.
-/

namespace SecureDigital

structure Ratio where
  multiplier : Nat
  divider : Nat
deriving DecidableEq

namespace Ratio

/-- The bus frequency, in kHz, of the ratio one to one. -/
def unitKhz : Nat := 10000

/-- The ratios the PLL has: by divider, 1 to 128, and then by multiplier, 2 to 128. -/
def candidates : List Ratio :=
  (List.range' 1 128).flatMap fun d => (List.range' 2 127).map fun m => ⟨m, d⟩

def first : Ratio := ⟨2, 1⟩

/-- The distance of the ratio's frequency from `khz`, times the divider. -/
def distance (khz : Nat) (r : Ratio) : Nat :=
  (r.multiplier * unitKhz - r.divider * khz) + (r.divider * khz - r.multiplier * unitKhz)

def nearer (khz : Nat) (r best : Ratio) : Bool :=
  r.distance khz * best.divider < best.distance khz * r.divider

/-- The candidate nearest to `khz`, the first one if several are. -/
def nearest (khz : Nat) : Ratio :=
  candidates.foldl (fun best r => if r.nearer khz best then r else best) first

def counterFlag : UInt32 := 0x1000

/-- The high and the low half-count of a counter, the high one six bits up; an odd counter has its
extra cycle in the low half. What does not fit the word is lost. -/
def halfCounts (count : Nat) : UInt32 :=
  UInt32.ofNat (((count / 2) <<< 6) ||| (count / 2 + count % 2))

def multiplierWord (r : Ratio) : UInt32 := counterFlag ||| halfCounts r.multiplier

/-- The counter word of the divider; the divider 1 is the bare flag. -/
def dividerWord (r : Ratio) : UInt32 :=
  if r.divider = 1 then counterFlag else halfCounts r.divider

theorem mem_candidates {r : Ratio} :
    r ∈ candidates ↔ (1 ≤ r.divider ∧ r.divider ≤ 128) ∧ 2 ≤ r.multiplier ∧ r.multiplier ≤ 128 := by
  obtain ⟨m, d⟩ := r
  simp only [candidates, List.mem_flatMap, List.mem_map, List.mem_range'_1, mk.injEq]
  constructor
  · rintro ⟨d, hd, m, hm, rfl, rfl⟩
    omega
  · intro h
    exact ⟨d, by omega, m, by omega, rfl, rfl⟩

theorem first_mem : first ∈ candidates := mem_candidates.2 (by decide)

end Ratio

end SecureDigital

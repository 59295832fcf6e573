import SecureDigital.Device.Scripted
import SecureDigital.Proofs.Clock.Nearest
import SecureDigital.Proofs.Confined

/-!
# What the clock generator is told

`counterWrites` are the counters that a run hands to the generator: what its address and data registers hold each time
the write is triggered. Programming a clock hands it the words of the nearest ratio (`Runs.program`), which `Ratio.words`
spells out.

A counter word has two half-counts of six bits each, where 0 stands for 64. `Encodes word count` says that they add up
to the count, with the extra cycle of an odd one in the low half. That holds up to 127. The half-counts of 128 do not
fit (`halfCounts_128`): the high one runs into the flag in bit 12, the low one into the high one.
-/

namespace SecureDigital

/-! ### The counters of a run -/

def Access.isPortWrite : Access → Bool
  | .write .pllAddress _ | .write .pllData _ | .write .pllWrite _ => true
  | _ => false

theorem Access.isPortWrite_of_not_isClock {a : Access} (h : a.isClock = false) : a.isPortWrite = false := by
  unfold isClock at h
  split at h
  case h_5 => unfold isPortWrite; split <;> simp_all
  all_goals cases h

namespace Clock

/-- The generator's registers, and the counters it has been handed, the latest one first. -/
structure Port where
  address : UInt32
  data : UInt32
  counters : List (UInt32 × UInt32)

namespace Port

def reset : Port := ⟨0, 0, []⟩

def observe (port : Port) : Access → Port
  | .write .pllAddress value => { port with address := value }
  | .write .pllData value => { port with data := value }
  | .write .pllWrite _ => { port with counters := (port.address, port.data) :: port.counters }
  | _ => port

theorem observe_of_not_isPortWrite {port : Port} {a : Access} (h : a.isPortWrite = false) : port.observe a = port := by
  unfold observe
  split <;> first | rfl | cases h

theorem foldl_of_not_isPortWrite {port : Port} {xs : List Access} (h : ∀ a ∈ xs, a.isPortWrite = false) :
    xs.foldl observe port = port := by
  induction xs with
  | nil => rfl
  | cons a xs ih =>
    obtain ⟨ha, hxs⟩ := List.forall_mem_cons.1 h
    rw [List.foldl_cons, observe_of_not_isPortWrite ha]
    exact ih hxs

end Port

/-- Address and word of each counter that is written. -/
def counterWrites (xs : List Access) : List (UInt32 × UInt32) :=
  (xs.foldl Port.observe .reset).counters.reverse

/-- After any accesses, `xs` hands the generator the counters `cs`. -/
def Hands (xs : List Access) (cs : List (UInt32 × UInt32)) : Prop :=
  ∀ port : Port, (xs.foldl Port.observe port).counters = cs.reverse ++ port.counters

/-- What is written to hand over one counter. -/
def writes (address word : UInt32) : List (ControlRegister × UInt32) :=
  [(.pllAddress, address), (.pllData, word), (.pllWrite, 1)]

namespace Hands
variable {xs ys : List Access} {cs ds : List (UInt32 × UInt32)}

theorem counterWrites_eq (h : Hands xs cs) : counterWrites xs = cs := by
  rw [counterWrites, h]
  simp [Port.reset]

theorem append (h : Hands xs cs) (h' : Hands ys ds) : Hands (xs ++ ys) (cs ++ ds) := by
  intro port
  rw [List.foldl_append, h', h, List.reverse_append, List.append_assoc]

theorem nil_of_not_isPortWrite (h : ∀ a ∈ xs, a.isPortWrite = false) : Hands xs [] := by
  intro port
  rw [Port.foldl_of_not_isPortWrite h]
  rfl

/-- The writes of one counter hand it over with the last of them. -/
theorem of_prefix {address word : UInt32} (h : xs <+: (writes address word).map Access.ofWrite) :
    ∃ cs, cs <+: [(address, word)] ∧ Hands xs cs := by
  have hnil : [] <+: [(address, word)] := List.nil_prefix
  rcases List.prefix_cons_iff.1 h with rfl | ⟨ys, rfl, hys⟩
  · exact ⟨[], hnil, fun _ => rfl⟩
  rcases List.prefix_cons_iff.1 hys with rfl | ⟨zs, rfl, hzs⟩
  · exact ⟨[], hnil, fun _ => rfl⟩
  rcases List.prefix_cons_iff.1 hzs with rfl | ⟨us, rfl, hus⟩
  · exact ⟨[], hnil, fun _ => rfl⟩
  · rw [List.map_nil, List.prefix_nil] at hus
    subst hus
    exact ⟨[(address, word)], List.prefix_rfl, fun _ => rfl⟩

end Hands

end Clock

/-- A count as a word: its halves, the high one six bits up, and the low one with the cycle that an odd count has left. -/
def Ratio.countWord (count : Nat) : UInt32 := .ofNat ((count / 2) <<< 6 ||| (count / 2 + count % 2))

/-- The addresses and words that set the generator to a ratio. The multiplier comes first, with the flag in bit 12, then the
divider, of which 1 is the flag alone, then the two outputs. -/
def Ratio.words (r : Ratio) : List (UInt32 × UInt32) :=
  [(0x14, 0x1000 ||| countWord r.multiplier), (0x16, if r.divider = 1 then 0x1000 else countWord r.divider),
    (0x08, 0x1145), (0x0A, 0x1041)]

theorem Clock.counters_eq_words (r : Ratio) : counters r = r.words := rfl

open Clock

namespace Driver.Runs
variable {σ : Type} [Device σ] {xs : List Access}

theorem awaitReady {r : Except Halt Unit} (h : (awaitReady : Driver σ Unit).Runs r xs) : Hands xs [] := by
  have hreads : (Clock.awaitReady : Driver σ Unit).Confined fun a => !a.isPortWrite :=
    (Driver.Confined.sequential _).repeatUntil (.bind (.read fun _ => rfl) fun _ => .pure _)
  refine .nil_of_not_isPortWrite fun a ha => ?_
  simpa using hreads h a ha

theorem writeCounter {counter : UInt32 × UInt32} {r : Except Halt Unit}
    (h : (writeCounter counter.1 counter.2 : Driver σ Unit).Runs r xs) :
    ∃ cs, Hands xs cs ∧ cs <+: [counter] ∧ (r = .ok () → cs = [counter]) := by
  have hwrites : (Clock.writeCounter counter.1 counter.2 : Driver σ Unit) =
      (writes counter.1 counter.2).forM (fun w => Driver.write w.1 w.2) >>= fun _ => Clock.awaitReady := by
    simp [Clock.writeCounter, writes]
  rw [hwrites] at h
  rcases h.bind with ⟨e, rfl, hhalt⟩ | ⟨_, ys, zs, rfl, hys, hzs⟩
  · obtain ⟨⟨⟩, -⟩ | ⟨_, -, hprefix⟩ := hhalt.of_writes
    obtain ⟨cs, hcs, hhands⟩ := Hands.of_prefix hprefix
    exact ⟨cs, hhands, hcs, nofun⟩
  · obtain ⟨-, rfl⟩ | ⟨_, ⟨⟩, -⟩ := hys.of_writes
    have hhands : Hands ((writes counter.1 counter.2).map Access.ofWrite) [counter] := fun _ => rfl
    exact ⟨[counter], hhands.append hzs.awaitReady, List.prefix_rfl, fun _ => rfl⟩

theorem writeCounters {counters : List (UInt32 × UInt32)} {r : Except Halt Unit}
    (h : (counters.forM fun c => Clock.writeCounter c.1 c.2 : Driver σ Unit).Runs r xs) :
    ∃ cs, Hands xs cs ∧ cs <+: counters ∧ (r = .ok () → cs = counters) := by
  induction counters generalizing xs with
  | nil =>
    obtain ⟨-, rfl⟩ := h.of_pure
    exact ⟨[], fun _ => rfl, List.prefix_rfl, fun _ => rfl⟩
  | cons c counters ih =>
    have hcons : (Clock.writeCounter c.1 c.2 >>= fun _ => counters.forM fun c => Clock.writeCounter c.1 c.2 :
      Driver σ Unit).Runs r xs := h
    rcases hcons.bind with ⟨e, rfl, hhalt⟩ | ⟨_, ys, zs, rfl, hys, hzs⟩
    · obtain ⟨cs, hhands, hcs, -⟩ := hhalt.writeCounter
      exact ⟨cs, hhands, hcs.trans (List.prefix_append [c] counters), nofun⟩
    · obtain ⟨cs, hhands, -, hreturned⟩ := hys.writeCounter
      obtain ⟨ds, hhands', hds, hreturned'⟩ := ih hzs
      obtain rfl := hreturned rfl
      refine ⟨[c] ++ ds, hhands.append hhands', (List.prefix_cons_inj c).2 hds, fun hr => ?_⟩
      rw [hreturned' hr]
      rfl

/-- Programming a clock hands over the words of the nearest ratio, one after the other. -/
theorem program {khz : UInt32} {r : Except Halt Ratio} (h : (Clock.program khz : Driver σ Ratio).Runs r xs) :
    ∃ cs, Hands xs cs ∧ cs <+: (Ratio.nearest khz.toNat).words ∧
      ∀ ratio, r = .ok ratio → ratio = .nearest khz.toNat ∧ cs = ratio.words := by
  rcases h.of_notes_bind.bind with ⟨e, rfl, hhalt⟩ | ⟨_, ys, zs, rfl, hys, hzs⟩
  · obtain ⟨cs, hhands, hcs, -⟩ := hhalt.writeCounters
    rw [counters_eq_words] at hcs
    exact ⟨cs, hhands, hcs, nofun⟩
  · obtain ⟨cs, hhands, hcs, hreturned⟩ := hys.writeCounters
    rw [counters_eq_words] at hcs hreturned
    obtain ⟨rfl, rfl⟩ := hzs.of_pure
    rw [List.append_nil]
    refine ⟨cs, hhands, hcs, fun ratio hr => ?_⟩
    rw [← Except.ok.inj hr]
    exact ⟨rfl, hreturned rfl⟩

end Driver.Runs

/-! ### Counter words -/

namespace Clock

def highHalf : Field := ⟨6, 6⟩

def lowHalf : Field := ⟨0, 6⟩

/-- The cycles that a half-count stands for. -/
def cycles (half : Field) (word : UInt32) : Nat :=
  if half.read word = 0 then 64 else (half.read word).toNat

structure Encodes (word : UInt32) (count : Nat) : Prop where
  sum : cycles highHalf word + cycles lowHalf word = count
  low : cycles lowHalf word = cycles highHalf word ∨ cycles lowHalf word = cycles highHalf word + 1

theorem encodes_iff {word : UInt32} {count : Nat} : Encodes word count ↔
    cycles highHalf word + cycles lowHalf word = count ∧
      (cycles lowHalf word = cycles highHalf word ∨ cycles lowHalf word = cycles highHalf word + 1) :=
  ⟨fun h => ⟨h.sum, h.low⟩, fun h => ⟨h.1, h.2⟩⟩

instance (word : UInt32) (count : Nat) : Decidable (Encodes word count) := decidable_of_iff _ encodes_iff.symm

end Clock

namespace Ratio

theorem halfCounts_128 : halfCounts 128 = 0x1040 := by decide

theorem encodes_halfCounts : ∀ count < 128, 2 ≤ count →
    Encodes (halfCounts count) count ∧ Encodes (counterFlag ||| halfCounts count) count ∧
      testBit (halfCounts count) 12 = false ∧ testBit (counterFlag ||| halfCounts count) 12 := by
  decide +kernel

theorem encodes_multiplierWord {r : Ratio} (h : r ∈ candidates) :
    testBit r.multiplierWord 12 ∧ (Encodes r.multiplierWord r.multiplier ↔ r.multiplier ≠ 128) := by
  obtain ⟨-, hlow, hhigh⟩ := mem_candidates.1 h
  rcases Nat.lt_or_eq_of_le hhigh with hlt | heq
  · obtain ⟨-, hencodes, -, hflag⟩ := encodes_halfCounts r.multiplier hlt hlow
    exact ⟨hflag, iff_of_true hencodes (Nat.ne_of_lt hlt)⟩
  · rw [multiplierWord, heq]
    decide +kernel

theorem encodes_dividerWord {r : Ratio} (h : r ∈ candidates) :
    (testBit r.dividerWord 12 ↔ r.divider = 1 ∨ r.divider = 128) ∧
      (r.divider ≠ 1 → (Encodes r.dividerWord r.divider ↔ r.divider ≠ 128)) := by
  obtain ⟨⟨hlow, hhigh⟩, -⟩ := mem_candidates.1 h
  unfold dividerWord
  by_cases hone : r.divider = 1
  · rw [if_pos hone]
    exact ⟨iff_of_true (by decide) (.inl hone), fun hne => absurd hone hne⟩
  rw [if_neg hone]
  rcases Nat.lt_or_eq_of_le hhigh with hlt | heq
  · obtain ⟨hencodes, -, hflag, -⟩ := encodes_halfCounts r.divider hlt (by omega)
    refine ⟨?_, fun _ => iff_of_true hencodes (Nat.ne_of_lt hlt)⟩
    rw [hflag]
    exact iff_of_false nofun (by omega)
  · rw [heq, halfCounts_128]
    decide +kernel

end Ratio

variable {σ : Type} [Device σ]

theorem program_counter_words {khz : UInt32} {r : Except Halt Ratio} {xs : List Access}
    (h : (Clock.program khz : Driver σ Ratio).Runs r xs) :
    let ratio := Ratio.nearest khz.toNat
    ∃ mw dw, counterWrites xs <+: [(0x14, mw), (0x16, dw), (0x08, 0x1145), (0x0A, 0x1041)] ∧
      (∀ ratio', r = .ok ratio' →
        ratio' = ratio ∧ counterWrites xs = [(0x14, mw), (0x16, dw), (0x08, 0x1145), (0x0A, 0x1041)]) ∧
      testBit mw 12 ∧ (Encodes mw ratio.multiplier ↔ ratio.multiplier ≠ 128) ∧
      (testBit dw 12 ↔ ratio.divider = 1 ∨ ratio.divider = 128) ∧
      (ratio.divider ≠ 1 → (Encodes dw ratio.divider ↔ ratio.divider ≠ 128)) := by
  intro ratio
  obtain ⟨cs, hhands, hcs, hreturned⟩ := h.program
  have hmem : ratio ∈ Ratio.candidates := Ratio.nearest_mem _
  obtain ⟨hflag, hmultiplier⟩ := Ratio.encodes_multiplierWord hmem
  obtain ⟨hflag', hdivider⟩ := Ratio.encodes_dividerWord hmem
  have hcounters : ratio.words =
      [(0x14, ratio.multiplierWord), (0x16, ratio.dividerWord), (0x08, 0x1145), (0x0A, 0x1041)] := rfl
  rw [hhands.counterWrites_eq]
  refine ⟨ratio.multiplierWord, ratio.dividerWord, hcounters ▸ hcs, fun ratio' hr => ?_, hflag, hmultiplier, hflag',
    hdivider⟩
  obtain ⟨hratio, hall⟩ := hreturned ratio' hr
  refine ⟨hratio, ?_⟩
  rw [hall, hratio]
  exact hcounters

theorem program_counter_words_odd :
    let o := (Clock.program 10160).run ({} : Scripted) 100
    o.result = .ok ⟨127, 125⟩ ∧
      ∃ mw dw, counterWrites o.accesses = [(0x14, mw), (0x16, dw), (0x08, 0x1145), (0x0A, 0x1041)] ∧
        Encodes mw 127 ∧ Encodes dw 125 ∧ testBit mw 12 ∧ ¬ testBit dw 12 := by
  have hends : Driver.ends (Clock.program 10160) ({} : Scripted) 100 fun _ => true := by decide +kernel
  obtain ⟨ratio, -, hresult⟩ := Driver.exists_of_ends hends
  obtain ⟨mw, dw, -, hreturned, hflag, hmultiplier, hflag', hdivider⟩ := program_counter_words ⟨_, _, hresult, rfl⟩
  obtain ⟨hratio, hwrites⟩ := hreturned ratio rfl
  have hnearest : Ratio.nearest (UInt32.toNat 10160) = ⟨127, 125⟩ := by
    have hcandidate : (⟨127, 125⟩ : Ratio) ∈ Ratio.candidates := Ratio.mem_candidates.2 (by decide)
    have hmet := @Ratio.nearest_eq_of_reachable (UInt32.toNat 10160) _ hcandidate (by decide)
    have hmem := Ratio.mem_candidates.1 (Ratio.nearest_mem (UInt32.toNat 10160))
    generalize Ratio.nearest (UInt32.toNat 10160) = s at *
    obtain ⟨m, d⟩ := s
    simp only [Ratio.mk.injEq] at hmet hmem ⊢
    omega
  rw [hratio, hnearest] at hresult
  rw [hnearest] at hmultiplier hdivider hflag'
  exact ⟨hresult, mw, dw, hwrites, hmultiplier.2 (by decide), (hdivider (by decide)).2 (by decide), hflag,
    mt hflag'.1 (by decide)⟩

/-- The counter 128, as divider or as multiplier, is written as 65, and as a divider with the flag of the divider 1. -/
theorem program_writes_128_as_65 :
    let slow := (Clock.program 100).run ({} : Scripted) 100
    let fast := (Clock.program 1280000).run ({} : Scripted) 100
    slow.result = .ok ⟨2, 128⟩ ∧ (0x16, 0x1040) ∈ counterWrites slow.accesses ∧
      fast.result = .ok ⟨128, 1⟩ ∧ (0x14, 0x1040) ∈ counterWrites fast.accesses ∧
      testBit 0x1040 12 ∧ cycles highHalf 0x1040 + cycles lowHalf 0x1040 = 65 := by
  have hcounters {khz : UInt32} {ratio : Ratio}
      (hends : Driver.ends (Clock.program khz) ({} : Scripted) 100 fun _ => true)
      (hnearest : Ratio.nearest khz.toNat = ratio) :
      ((Clock.program khz).run ({} : Scripted) 100).result = .ok ratio ∧
        counterWrites ((Clock.program khz).run ({} : Scripted) 100).accesses = ratio.words := by
    obtain ⟨ratio', -, hresult⟩ := Driver.exists_of_ends hends
    obtain ⟨cs, hhands, -, hreturned⟩ := Driver.Runs.program ⟨_, _, hresult, rfl⟩
    obtain ⟨hratio, hcs⟩ := hreturned ratio' rfl
    rw [hratio, hnearest] at hresult hcs
    exact ⟨hresult, hhands.counterWrites_eq.trans hcs⟩
  have hnearest : Ratio.nearest (UInt32.toNat 100) = ⟨2, 128⟩ := Ratio.nearest_of_slow (by decide)
  have hnearest' : Ratio.nearest (UInt32.toNat 1280000) = ⟨128, 1⟩ := Ratio.nearest_of_fast (by decide)
  obtain ⟨hslow, hslow'⟩ := hcounters (by decide +kernel) hnearest
  obtain ⟨hfast, hfast'⟩ := hcounters (by decide +kernel) hnearest'
  refine ⟨hslow, ?_, hfast, ?_, by decide, by decide⟩
  · rw [hslow']
    decide
  · rw [hfast']
    decide

end SecureDigital

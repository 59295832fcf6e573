import SecureDigital.Proofs.BringUp.Script
import SecureDigital.Proofs.BringUp.Stepwise
import SecureDigital.Proofs.Clock.FirstNearest
import SecureDigital.Proofs.Clock.Words

/-!
# The bus clock during the bring-up

A bring-up that returns a card has four parts, two that set the clock and two that talk to the card:
`SetsClock xs ratio` says that `xs` hands the generator the words of `ratio` and launches no command,
`Talks xs script` that it launches the commands of `script` and leaves the generator alone. The first clock is that of
the identification; the second one depends on the speed that the card has taken (`Card.IsFast`).

The clock that is set is the nearest that there is, which may lie above the one that was asked for. It does not exceed
400 kHz or 25 MHz for a target below, since both are met exactly (`nearest_le_of_reachable`).
-/

namespace SecureDigital

variable {σ : Type}

open Clock Launch

/-! ### What leaves the clock alone -/

section Stages

variable [Device σ] (config : Config) (card : Card)

namespace Driver.Confined

theorem stepwise_spares : Card.Stepwise (σ := σ) config fun x => x.run.Confined (Access.spares Access.isClock) :=
  stepwise (fun _ h => (Access.spares_of_servesCommand h).1) config fun _ h => (Access.spares_of_isMemoryRead h).1

theorem powerUp : (Card.powerUp card : Fallible σ Card).run.Confined (Access.spares Access.isClock) :=
  have hexecute := execute (fun _ h => (Access.spares_of_servesCommand h).1) card.config
  (sequential _).powerUp (hexecute _) (hexecute _) (fun _ _ => (delay _ _).mono fun _ => Access.spares_isClock_of_isTimer)
    rfl

end Driver.Confined

end Stages

/-! ### The parts of a bring-up -/

structure Talks (xs : List Access) (script : List Launch) : Prop where
  sparesClock : ∀ a ∈ xs, a.spares Access.isClock
  adds : ∃ es, Adds xs es ∧ es.map Exchange.launch = script

structure SetsClock (xs : List Access) (ratio : Ratio) : Prop where
  hands : Hands xs ratio.words
  adds : Adds xs []

namespace Talks
variable {xs ys : List Access} {script script' : List Launch}

theorem append (h : Talks xs script) (h' : Talks ys script') : Talks (xs ++ ys) (script ++ script') := by
  obtain ⟨es, hes, hscript⟩ := h.adds
  obtain ⟨fs, hfs, hscript'⟩ := h'.adds
  refine ⟨List.forall_mem_append.2 ⟨h.sparesClock, h'.sparesClock⟩, es ++ fs, hes.append hfs, ?_⟩
  rw [List.map_append, hscript, hscript']

theorem hands (h : Talks xs script) : Hands xs [] := by
  refine .nil_of_not_isPortWrite fun a ha => Access.isPortWrite_of_not_isClock ?_
  exact Access.not_kind_of_spares (h.sparesClock a ha)

end Talks

namespace Card
variable [Device σ] {card card' : Card} {xs : List Access}

/-- Whether the card is selected and at more than the default speed. -/
def IsFast (card : Card) : Prop := ∃ mode ≠ AccessMode.sdr12, card.session.state = .transfer mode

theorem operatingKhz_of_isFast (h : card.IsFast) : card.operatingKhz = card.config.clockKhz := by
  obtain ⟨mode, hmode, hstate⟩ := h
  unfold operatingKhz
  split
  · simp_all
  · rfl
  · simp_all

theorem operatingKhz_of_not_isFast (h : ¬ card.IsFast) :
    card.operatingKhz = min card.config.clockKhz defaultSpeedKhz := by
  unfold operatingKhz
  split
  · rfl
  · next mode hmode hstate => exact absurd ⟨mode, hmode, hstate⟩ h
  · rfl

theorem operatingKhz_le (h : ¬ card.IsFast) : card.operatingKhz.toNat ≤ 25000 := by
  have hmin : min card.config.clockKhz defaultSpeedKhz =
    if card.config.clockKhz ≤ defaultSpeedKhz then card.config.clockKhz else defaultSpeedKhz := rfl
  rw [operatingKhz_of_not_isFast h, hmin]
  split
  · next hle => exact UInt32.le_iff_toNat_le.1 hle
  · exact Nat.le_refl _

theorem setsClock_prepare {config : Config} (h : (prepare config : Driver σ Unit).Runs (.ok ()) xs) :
    SetsClock xs (.nearest config.initClockKhz.toNat) := by
  have hadds : Adds xs [] := (confined_prepare config).adds_nil h
  obtain ⟨ys, rfl, h₁⟩ := h.write_bind_ok
  obtain ⟨ys, rfl, h₂⟩ := h₁.write_bind_ok
  obtain ⟨ratio, us, vs, rfl, hprogram, hdelay⟩ := h₂.bind_ok
  obtain ⟨cs, hhands, -, hreturned⟩ := hprogram.program
  obtain ⟨hratio, hcs⟩ := hreturned ratio rfl
  rw [hcs, hratio] at hhands
  have hdelay' : Hands vs [] := by
    refine .nil_of_not_isPortWrite fun a ha => Access.isPortWrite_of_not_isClock ?_
    exact Access.not_kind_of_spares (Access.spares_isClock_of_isTimer (Driver.Confined.delay _ _ hdelay a ha))
  have htimeouts (value value' : UInt32) : Hands [.write .cmdTimeout value, .write .dataTimeout value'] [] :=
    fun _ => rfl
  refine ⟨?_, hadds⟩
  simpa using (htimeouts _ _).append (hhands.append hdelay')

theorem setsClock_setClock (h : (setClock card : Fallible σ Card).run.Runs (.ok (.ok card')) xs) :
    card' = card ∧ SetsClock xs (.nearest card.operatingKhz.toNat) := by
  obtain ⟨ratio, us, vs, rfl, hprogram, hrest⟩ := h.bindLift_ok
  obtain ⟨hcard, rfl⟩ := hrest.of_pure
  have hadds := ((Driver.Confined.program _).mono fun _ => Access.isQuiet_of_isClock).adds_nil hprogram
  obtain ⟨cs, hhands, -, hreturned⟩ := hprogram.program
  obtain ⟨hratio, hcs⟩ := hreturned ratio rfl
  rw [hcs, hratio] at hhands
  rw [List.append_nil]
  exact ⟨Except.ok.inj (Except.ok.inj hcard), hhands, hadds⟩

theorem talks_reset (h : (reset card : Fallible σ Card).run.Runs (.ok (.ok card')) xs) :
    Talks xs resetScript ∧ card' = card.inState .readyWait := by
  obtain ⟨es, hadds, hes⟩ := conducts_reset card h
  cases hes with
  | completed hscript _ hcard => exact ⟨⟨(Driver.Confined.stepwise_spares _).reset rfl h, es, hadds, hscript⟩, hcard⟩

theorem talks_powerUp (h : (powerUp card : Fallible σ Card).run.Runs (.ok (.ok card')) xs) :
    ∃ k, Talks xs (powerUpRounds k) := by
  obtain ⟨fs, r', hadds, hfs, hr⟩ := h.powerUp
  rcases hfs with @⟨k, fs, e, hrounds, hbit⟩ | _ | _ <;> cases hr
  exact ⟨k + 1, Driver.Confined.powerUp card h, fs ++ [e], hadds, hrounds⟩

omit [Device σ] in
theorem Stage.talks {f : Card → Fallible σ Card} {script : Config → UInt32 → List Launch} (hf : Stage f script)
    (hconfined : (f card).run.Confined (Access.spares Access.isClock)) (h : (f card).run.Runs (.ok (.ok card')) xs) :
    Talks xs (script card.config card.session.addressArgument) ∧
      ∃ es : List Exchange, es.map Exchange.launch = script card.config card.session.addressArgument ∧
        card' = es.foldl learn card := by
  obtain ⟨es, hadds, hes⟩ := hf card h
  cases hes with
  | completed hscript _ hpost => exact ⟨⟨hconfined h, es, hadds, hscript⟩, es, hscript, hpost.1⟩

theorem talks_identify (h : (identify card : Fallible σ Card).run.Runs (.ok (.ok card')) xs) : Talks xs identifyScript :=
  (stage_identify.talks ((Driver.Confined.stepwise_spares _).identify rfl) h).1

theorem talks_negotiate (h : (negotiate card : Fallible σ Card).run.Runs (.ok (.ok card')) xs) :
    Talks xs (negotiationScript card.config card.session.addressArgument) ∧ card'.session.rca = card.session.rca := by
  obtain ⟨htalks, es, hscript, rfl⟩ := stage_negotiate.talks ((Driver.Confined.stepwise_spares _).negotiate rfl) h
  refine ⟨htalks, foldl_learn_rca fun e he hindex => ?_⟩
  have hmem : e.index ∈ [10, 9, 7, 55, 6] :=
    index_of_mem_negotiationScript _ _ e.launch (hscript ▸ List.mem_map_of_mem he)
  rw [hindex] at hmem
  exact absurd hmem (by decide)

/-- The last commands change neither the address nor the state. -/
theorem talks_close (h : (close card : Fallible σ Card).run.Runs (.ok (.ok card')) xs) :
    Talks xs (closingScript card.config card.session.addressArgument) ∧ card'.session = card.session := by
  obtain ⟨htalks, es, hscript, rfl⟩ := stage_close.talks ((Driver.Confined.stepwise_spares _).close rfl) h
  refine ⟨htalks, foldl_learn_session fun e he hindex => ?_⟩
  have hmem : e.index ∈ [55, 51, 16] :=
    index_of_mem_closingScript _ _ e.launch (hscript ▸ List.mem_map_of_mem he)
  generalize e.index = index at *
  revert index
  decide +kernel

/-- What is said to the card before the operating clock is set. -/
theorem talks_front {config : Config} (h : (reset (.fresh config) >>= fun card => powerUp card >>= fun card =>
      identify card >>= fun card => configure card : Fallible σ Card).run.Runs (.ok (.ok card)) xs) :
    ∃ vs ys rounds negotiated, xs = vs ++ ys ∧ negotiated.config = config ∧
      Talks vs (resetScript ++ powerUpRounds rounds ++ identifyScript ++
        negotiationScript config negotiated.session.addressArgument) ∧
      (setClock negotiated >>= close : Fallible σ Card).run.Runs (.ok (.ok card)) ys := by
  obtain ⟨_, v₁, _, rfl, hreset, h₂⟩ := h.bindFallible_ok
  obtain ⟨powered, v₂, _, rfl, hpowerUp, h₃⟩ := h₂.bindFallible_ok
  obtain ⟨identified, v₃, _, rfl, hidentify, h₄⟩ := h₃.bindFallible_ok
  rw [configure_eq] at h₄
  obtain ⟨negotiated, v₄, ys, rfl, hnegotiate, h₅⟩ := h₄.bindFallible_ok
  obtain ⟨hv₁, rfl⟩ := talks_reset hreset
  obtain ⟨rounds, hv₂⟩ := talks_powerUp hpowerUp
  have hv₃ := talks_identify hidentify
  obtain ⟨hv₄, hrca⟩ := talks_negotiate hnegotiate
  have hconfig : identified.config = config :=
    (stage_identify.keepsConfig hidentify).trans (keepsConfig_powerUp hpowerUp)
  have haddress : negotiated.session.addressArgument = identified.session.addressArgument :=
    congrArg (fun rca : UInt16 => rca.toUInt32 <<< 16) hrca
  rw [hconfig, ← haddress] at hv₄
  have hvs := ((hv₁.append hv₂).append hv₃).append hv₄
  have hconfig' : negotiated.config = config := (stage_negotiate.keepsConfig hnegotiate).trans hconfig
  exact ⟨_, ys, rounds, negotiated, by simp only [List.append_assoc], hconfig', hvs, h₅⟩

/-- The clock is the one for the card that is returned. -/
theorem setsClock_back (h : (setClock card >>= close : Fallible σ Card).run.Runs (.ok (.ok card')) xs) :
    ∃ ts ws, xs = ts ++ ws ∧ card'.config = card.config ∧ SetsClock ts (.nearest card'.operatingKhz.toNat) ∧
      Talks ws (closingScript card.config card.session.addressArgument) := by
  obtain ⟨clocked, ts, ws, rfl, hclock, hclose⟩ := h.bindFallible_ok
  obtain ⟨hclocked, hts⟩ := setsClock_setClock hclock
  subst hclocked
  obtain ⟨hws, hsession⟩ := talks_close hclose
  have hconfig : card'.config = clocked.config := stage_close.keepsConfig hclose
  have hkhz : card'.operatingKhz = clocked.operatingKhz := by
    unfold operatingKhz
    rw [hsession, hconfig]
  rw [← hkhz] at hts
  exact ⟨ts, ws, rfl, hconfig, hts, hws⟩

end Card

open Ratio in
theorem bringUp_sets_clock_twice [Device σ] {config : Config} {card : Card} {xs : List Access}
    (h : (Card.bringUp config : Fallible σ Card).run.Runs (.ok (.ok card)) xs) :
    let slow := nearest config.initClockKhz.toNat
    let operating := nearest card.operatingKhz.toNat
    (∃ us vs ts ws rounds address, xs = us ++ vs ++ ts ++ ws ∧ SetsClock us slow ∧
      Talks vs (resetScript ++ powerUpRounds rounds ++ identifyScript ++ negotiationScript config address) ∧
      SetsClock ts operating ∧ Talks ws (closingScript config address)) ∧
    counterWrites xs = slow.words ++ operating.words ∧
    (card.IsFast → card.operatingKhz = config.clockKhz) ∧
    (¬ card.IsFast → card.operatingKhz = min config.clockKhz 25000 ∧ operating.AtMost 25000) ∧
    (config.initClockKhz ≤ 400 → slow.AtMost 400) ∧ ∃ khz ≤ 25000, ¬ (nearest khz).AtMost khz := by
  intro slow operating
  rw [Card.bringUp_eq] at h
  obtain ⟨_, us, _, rfl, hprepare, h₁⟩ := h.bindLift_ok
  obtain ⟨vs, _, rounds, negotiated, rfl, hnegotiated, hvs, h₂⟩ := Card.talks_front h₁
  obtain ⟨ts, ws, rfl, hback, hts, hws⟩ := Card.setsClock_back h₂
  have hus := Card.setsClock_prepare hprepare
  have hconfig : card.config = config := hback.trans hnegotiated
  rw [hnegotiated] at hws
  refine ⟨⟨us, vs, ts, ws, rounds, _, ?_, hus, hvs, hts, hws⟩, ?_, fun hfast => ?_, fun hslow => ⟨?_, ?_⟩,
    fun hinit => ?_, 24999, by decide, not_atMost_nearest⟩
  · simp only [List.append_assoc]
  · have hhands := hus.hands.append (hvs.hands.append (hts.hands.append hws.hands))
    rw [List.nil_append, List.append_nil] at hhands
    exact hhands.counterWrites_eq
  · rw [Card.operatingKhz_of_isFast hfast, hconfig]
  · rw [Card.operatingKhz_of_not_isFast hslow, hconfig]
    rfl
  · have hcandidate : (⟨5, 2⟩ : Ratio) ∈ candidates := mem_candidates.2 (by decide)
    exact nearest_le_of_reachable hcandidate rfl (Card.operatingKhz_le hslow)
  · have hcandidate : (⟨2, 50⟩ : Ratio) ∈ candidates := mem_candidates.2 (by decide)
    exact nearest_le_of_reachable hcandidate rfl (UInt32.le_iff_toNat_le.1 hinit)

/-- Without a scratch buffer the card stays at the default speed, whatever was asked for. The clocks are 2 to 50 and 5
to 2. -/
theorem bringUp_sets_clock_twice_willing :
    let o := (Card.bringUp {}).run.run Scripted.willing 3000
    ∃ card, o.result = .ok (.ok card) ∧ card.session.state = .transfer .sdr12 ∧ (Ratio.nearest 25000).AtMost 25000 ∧
      counterWrites o.accesses = [(0x14, 0x1041), (0x16, 0x0659), (0x08, 0x1145), (0x0A, 0x1041),
        (0x14, 0x1083), (0x16, 0x0041), (0x08, 0x1145), (0x0A, 0x1041)] := by
  have hreturns : Driver.returns (Card.bringUp {}) Scripted.willing 3000
      fun card => card.session.state = .transfer .sdr12 := by decide +kernel
  obtain ⟨card, hcard, hresult⟩ := Driver.exists_of_returns hreturns
  have hstate : card.session.state = .transfer .sdr12 := of_decide_eq_true hcard
  have hslow : ¬ card.IsFast := by
    rintro ⟨mode, hmode, htransfer⟩
    rw [hstate] at htransfer
    exact hmode (CardState.transfer.inj htransfer).symm
  obtain ⟨-, hwrites, -, hcapped, -⟩ := bringUp_sets_clock_twice ⟨_, _, hresult, rfl⟩
  obtain ⟨hkhz, hatMost⟩ := hcapped hslow
  have hdefault : card.operatingKhz.toNat = 25000 := by
    rw [hkhz]
    rfl
  have hmet : Ratio.nearest (UInt32.toNat 400) = ⟨2, 50⟩ ∧ Ratio.nearest 25000 = ⟨5, 2⟩ := by
    constructor
    all_goals
      refine Ratio.nearest_eq_of_first (Ratio.mem_candidates.2 (by decide)) rfl fun s hs hsame => ?_
      have hrange := Ratio.mem_candidates.1 hs
      simp only [Ratio.Precedes] at hsame ⊢
      omega
  rw [hdefault] at hwrites hatMost
  rw [show Config.initClockKhz {} = 400 from rfl, hmet.1, hmet.2] at hwrites
  exact ⟨card, hresult, hstate, hatMost, hwrites⟩

end SecureDigital

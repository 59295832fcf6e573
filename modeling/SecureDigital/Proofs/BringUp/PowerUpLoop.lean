import SecureDigital.Device.Scripted
import SecureDigital.Proofs.BringUp.Stepwise

/-!
# The rounds of the power-up loop

`PowerUpLoop` lists how the loop may go, with the words that its rounds have brought, in order: all rounds but one that finds
the card ready wait for a whole delay (`Retried`). A bring-up launches no command of the loop before it or after it, and
after it there is no delay either (`Driver.Runs.loop_and_rest`).
-/

namespace SecureDigital

open Card Launch

/-- Rounds that came back with `words`, none with the power-up bit; each has waited for a whole delay. -/
inductive Retried (config : Config) : List UInt32 → List Access → Prop
  | nil : Retried config [] []
  | cons {word : UInt32} {words : List UInt32} {xs ys zs : List Access} (hasked : Asked config word xs)
      (hbusy : ¬ testBit word 31) (hdelay : Timer.Elapsed config.sysClkHz config.ocrRetryDelayMs ys)
      (hrest : Retried config words zs) : Retried config (word :: words) (xs ++ ys ++ zs)

/-- How the loop may go, whose rounds, but for one that is halted, came back with the given words. -/
inductive PowerUpLoop (config : Config) : Except Halt (Option UInt32) → List UInt32 → List Access → Prop
  | ready {word : UInt32} {words : List UInt32} {xs ys : List Access} (hretried : Retried config words xs)
      (hlimit : config.ocrAttempts.Allows words.length) (hasked : Asked config word ys) (hready : testBit word 31) :
      PowerUpLoop config (.ok (some word)) (words ++ [word]) (xs ++ ys)
  | exhausted {n : UInt32} {words : List UInt32} {xs : List Access} (hretried : Retried config words xs)
      (hlimit : config.ocrAttempts = .attempts n) (hlength : words.length = n.toNat) :
      PowerUpLoop config (.ok none) words xs
  | halted {e : Halt} {words : List UInt32} {xs ys : List Access} (hretried : Retried config words xs)
      (hlimit : config.ocrAttempts.Allows words.length) (hround : ys = [] ∨ PowerUpRound config (.error e) ys) :
      PowerUpLoop config (.error e) words (xs ++ ys)

namespace Driver.Runs

variable {σ : Type} [Device σ] {config : Config} {xs : List Access}

theorem retried {idle : List (List Access)}
    (h : ∀ xs ∈ idle, (Card.powerUpRound config : Driver σ (Option UInt32)).Runs (.ok none) xs) :
    ∃ words, Retried config words idle.flatten ∧ words.length = idle.length := by
  induction idle with
  | nil => exact ⟨[], .nil, rfl⟩
  | cons xs idle ih =>
    obtain ⟨hxs, hidle⟩ := List.forall_mem_cons.1 h
    obtain ⟨words, hretried, hlength⟩ := ih hidle
    cases hxs.round with
    | waited hasked hbusy hdelay => exact ⟨_ :: words, .cons hasked hbusy hdelay hretried, congrArg Nat.succ hlength⟩

theorem loop {r : Except Halt (Option UInt32)}
    (h : (config.ocrAttempts.poll (Card.powerUpRound config) : Driver σ (Option UInt32)).Runs r xs) :
    ∃ words, PowerUpLoop config r words xs := by
  cases h.poll with
  | hit hidle hlimit hlast =>
    obtain ⟨words, hretried, hlength⟩ := retried hidle
    cases hlast.round with
    | ready hasked hready => exact ⟨_, .ready hretried (hlength ▸ hlimit) hasked hready⟩
  | spent hidle hlimit hlength' =>
    obtain ⟨words, hretried, hlength⟩ := retried hidle
    exact ⟨words, .exhausted hretried hlimit (hlength.trans hlength')⟩
  | halted hidle hlimit hlast =>
    obtain ⟨words, hretried, hlength⟩ := retried hidle
    exact ⟨words, .halted hretried (hlength ▸ hlimit) (hlast.imp_right round)⟩

/-- A loop of `n` rounds launches no command beyond them. -/
theorem launches_loop {r : Except Halt (Option UInt32)} {n : UInt32}
    (h : (config.ocrAttempts.poll (Card.powerUpRound config) : Driver σ (Option UInt32)).Runs r xs)
    (hlimit : config.ocrAttempts = .attempts n) : launches xs <+: powerUpRounds n.toNat := by
  cases h.poll with
  | hit hidle hallows hlast =>
    obtain ⟨es, hadds, hes, -⟩ := idle_rounds hidle
    obtain ⟨e, f, -, hround, hadds'⟩ | ⟨_, _, ⟨⟩, -⟩ := hlast.round.adds
    rw [launches, (hadds.append hadds').exchanges_eq, List.map_append, hes, hround]
    exact powerUpRounds_succ _ ▸ powerUpRounds_prefix (hallows n hlimit)
  | spent hidle hlimit' hlength =>
    obtain ⟨es, hadds, hes, -⟩ := idle_rounds hidle
    obtain rfl : n = _ := PollLimit.attempts.inj (hlimit.symm.trans hlimit')
    rw [launches, hadds.exchanges_eq, hes]
    exact hlength ▸ List.prefix_rfl
  | halted hidle hallows hlast =>
    obtain ⟨es, hadds, hes, -⟩ := idle_rounds hidle
    obtain ⟨fs, hadds', hfs⟩ := halted_round hlast
    rw [launches, (hadds.append hadds').exchanges_eq, List.map_append, hes]
    refine ((List.prefix_append_right_inj _).2 hfs).trans ?_
    exact powerUpRounds_succ _ ▸ powerUpRounds_prefix (hallows n hlimit)

end Driver.Runs

/-! ### What the words of the rounds tell -/

section Words

variable {config : Config} {r : Except Halt (Option UInt32)} {words : List UInt32} {xs : List Access}

theorem Retried.busy (h : Retried config words xs) : ∀ w ∈ words, ¬ testBit w 31 := by
  induction h with
  | nil => exact nofun
  | cons _ hbusy _ _ ih => exact List.forall_mem_cons.2 ⟨hbusy, ih⟩

namespace PowerUpLoop

theorem length_le (h : PowerUpLoop config r words xs) {n : UInt32} (hn : config.ocrAttempts = .attempts n) :
    words.length ≤ n.toNat := by
  cases h with
  | ready _ hlimit =>
    rw [List.length_append]
    exact hlimit n hn
  | exhausted _ hlimit hlength =>
    obtain rfl := PollLimit.attempts.inj (hn.symm.trans hlimit)
    exact Nat.le_of_eq hlength
  | halted _ hlimit => exact Nat.le_of_lt (hlimit n hn)

theorem eq_none_iff (h : PowerUpLoop config r words xs) {n : UInt32} (hn : config.ocrAttempts = .attempts n) :
    r = .ok none ↔ words.length = n.toNat ∧ ∀ w ∈ words, ¬ testBit w 31 := by
  cases h with
  | ready _ _ _ hready => exact iff_of_false nofun fun hbusy => hbusy.2 _ (by simp) hready
  | exhausted hretried hlimit hlength =>
    obtain rfl := PollLimit.attempts.inj (hn.symm.trans hlimit)
    exact iff_of_true rfl ⟨hlength, hretried.busy⟩
  | halted _ hlimit => exact iff_of_false nofun fun hall => Nat.ne_of_lt (hlimit n hn) hall.1

theorem ne_none (h : PowerUpLoop config r words xs) (hlimit : config.ocrAttempts = .unbounded) : r ≠ .ok none := by
  cases h with
  | exhausted _ hattempts => exact absurd (hlimit.symm.trans hattempts) nofun
  | ready | halted => exact nofun

end PowerUpLoop

end Words

/-! ### What surrounds the loop -/

section BringUp

variable {σ : Type} [Device σ] {config : Config} {card : Card} {r : Except Halt (Except Error Card)} {xs : List Access}

theorem Driver.Confined.afterPowerUp (hcard : card.config = config) :
    (identify card >>= configure : Fallible σ Card).run.Confined (Access.spares Access.isTimer) := by
  have hstepwise : Stepwise (σ := σ) config fun x => x.run.Confined (Access.spares Access.isTimer) :=
    stepwise (fun _ h => (Access.spares_of_servesCommand h).2) config fun _ h => (Access.spares_of_isMemoryRead h).2
  refine hstepwise.bind (hstepwise.identify hcard) fun card' _ hrun => hstepwise.configure ?_ fun khz => ?_
  · exact (stage_identify.keepsConfig hrun).trans hcard
  · exact (sequential _).lift ((program khz).mono fun _ => Access.spares_isTimer_of_isClock)

/-- Once the card is powered up, the bring-up neither waits nor asks again. -/
theorem Driver.Runs.afterPowerUp (hrca : card.session.rca = 0)
    (h : (identify card >>= configure : Fallible σ Card).run.Runs r xs) :
    r ≠ .ok (.error .cardNotReady) ∧ (∀ a ∈ xs, ¬ a.isTimer) ∧
      launches xs <+: identifyScript ++ addressedScript card.config (publishedArgument (exchanges xs)) := by
  obtain ⟨gs, hadds, hgs⟩ := conducted_identify hrca h
  refine ⟨hgs.ne_cardNotReady, fun a ha => ?_, ?_⟩
  · rw [Access.not_kind_of_spares (Driver.Confined.afterPowerUp rfl h a ha)]
    exact nofun
  · rw [launches, hadds.exchanges_eq]
    exact hgs.launches_prefix_script

/-- A bring-up stops before the power-up loop, or has launched the reset and comes to the loop. -/
theorem Driver.Runs.reaches_powerUp (h : (Card.bringUp config : Fallible σ Card).run.Runs r xs) :
    (launches xs <+: resetScript ∧ r ≠ .ok (.error .cardNotReady) ∧ ∀ card, r ≠ .ok (.ok card)) ∨
      ∃ front back, xs = front ++ back ∧ launches front = resetScript ∧
        (Card.powerUp ((Card.fresh config).inState .readyWait) >>= fun card => identify card >>= configure :
          Fallible σ Card).run.Runs r back := by
  rw [bringUp_eq] at h
  have hquiet := confined_prepare (σ := σ) config
  rcases h.bindLift with ⟨e, rfl, hstop⟩ | ⟨_, ps, ys, rfl, hprepare, h₁⟩
  · refine .inl ⟨?_, by simp, by simp⟩
    rw [launches, (hquiet.adds_nil hstop).exchanges_eq]
    exact List.nil_prefix
  have hps := hquiet.adds_nil hprepare
  rcases h₁.bindFallible with ⟨e, rfl, hstop⟩ | ⟨e, rfl, hstop⟩ | ⟨card, us, back, rfl, hreset, h₂⟩
  · obtain ⟨es, hadds, hes⟩ := conducts_reset _ hstop
    refine .inl ⟨?_, by simp, by simp⟩
    rw [launches, (hps.append hadds).exchanges_eq]
    exact hes.launches_prefix_script
  · obtain ⟨es, hadds, hes⟩ := conducts_reset _ hstop
    refine .inl ⟨?_, hes.ne_cardNotReady, by simp⟩
    rw [launches, (hps.append hadds).exchanges_eq]
    exact hes.launches_prefix_script
  · obtain ⟨es, hadds, ⟨hscript, -, rfl⟩⟩ := conducts_reset _ hreset
    refine .inr ⟨ps ++ us, back, (List.append_assoc ..).symm, ?_, h₂⟩
    rw [launches, (hps.append hadds).exchanges_eq]
    exact hscript

/-- What follows on the reset is the loop and, if it has found the card ready, the rest of the bring-up. -/
theorem Driver.Runs.loop_and_rest (hrca : card.session.rca = 0)
    (h : (Card.powerUp card >>= fun card => identify card >>= configure : Fallible σ Card).run.Runs r xs) :
    ∃ loop rest r', xs = loop ++ rest ∧
      (card.config.ocrAttempts.poll (Card.powerUpRound card.config) : Driver σ (Option UInt32)).Runs r' loop ∧
      (r = .ok (.error .cardNotReady) ↔ r' = .ok none) ∧
      ((∃ word, r' = .ok (some word)) ∨ rest = [] ∧ r = r'.map fun _ => .error .cardNotReady) ∧
      (∀ a ∈ rest, ¬ a.isTimer) ∧
      launches rest <+: identifyScript ++ addressedScript card.config (publishedArgument (exchanges rest)) := by
  rcases h.bindFallible with ⟨e, rfl, hstop⟩ | ⟨e, rfl, hstop⟩ | ⟨powered, loop, rest, rfl, hpowerUp, hrest⟩
  · obtain ⟨r', hloop, hr⟩ := hstop.of_powerUp
    -- The loop was halted.
    rcases r' with _ | _ | _ <;> cases hr
    exact ⟨xs, [], _, (List.append_nil xs).symm, hloop, iff_of_false nofun nofun, .inr ⟨rfl, rfl⟩, nofun,
      List.nil_prefix⟩
  · obtain ⟨r', hloop, hr⟩ := hstop.of_powerUp
    -- Its rounds were used up.
    rcases r' with _ | _ | _ <;> cases hr
    exact ⟨xs, [], _, (List.append_nil xs).symm, hloop, iff_of_true rfl rfl, .inr ⟨rfl, rfl⟩, nofun, List.nil_prefix⟩
  · obtain ⟨r', hloop, hr⟩ := hpowerUp.of_powerUp
    obtain ⟨word, rfl, hrca', hconfig⟩ : ∃ word, r' = .ok (some word) ∧ powered.session.rca = 0 ∧
        powered.config = card.config := by
      rcases r' with _ | _ | word <;> cases hr
      exact ⟨word, rfl, hrca, rfl⟩
    obtain ⟨hready, htimer, hlaunches⟩ := hrest.afterPowerUp hrca'
    rw [hconfig] at hlaunches
    exact ⟨loop, rest, _, rfl, hloop, iff_of_false hready nofun, .inl ⟨word, rfl⟩, htimer, hlaunches⟩

end BringUp

theorem bringUp_power_up_loop {σ : Type} [Device σ] {config : Config} {r : Except Halt (Except Error Card)}
    {xs : List Access} (h : (Card.bringUp config : Fallible σ Card).run.Runs r xs) :
    (config.ocrAttempts = .unbounded → r ≠ .ok (.error .cardNotReady)) ∧
    ((launches xs <+: resetScript ∧ r ≠ .ok (.error .cardNotReady) ∧ ∀ card, r ≠ .ok (.ok card)) ∨
      ∃ front loop rest words r', xs = front ++ loop ++ rest ∧ launches front = resetScript ∧
        PowerUpLoop config r' words loop ∧
        (∀ n, config.ocrAttempts = .attempts n →
          words.length ≤ n.toNat ∧ launches loop <+: powerUpRounds n.toNat ∧
            (r = .ok (.error .cardNotReady) ↔ words.length = n.toNat ∧ ∀ w ∈ words, ¬ testBit w 31)) ∧
        ((∃ word, r' = .ok (some word)) ∨ rest = [] ∧ r = r'.map fun _ => .error .cardNotReady) ∧
        (∀ a ∈ rest, ¬ a.isTimer) ∧
        launches rest <+: identifyScript ++ addressedScript config (publishedArgument (exchanges rest))) := by
  rcases h.reaches_powerUp with ⟨hlaunches, hready, hcard⟩ | ⟨front, _, rfl, hfront, hback⟩
  · exact ⟨fun _ => hready, .inl ⟨hlaunches, hready, hcard⟩⟩
  obtain ⟨loop, rest, r', rfl, hrun, hready, hresult, htimer, hlaunches⟩ := hback.loop_and_rest rfl
  obtain ⟨words, hloop⟩ := hrun.loop
  refine ⟨fun hlimit hr => hloop.ne_none hlimit (hready.1 hr), .inr ⟨front, loop, rest, words, r', ?_, hfront, hloop,
    fun n hn => ⟨hloop.length_le hn, hrun.launches_loop hn, hready.trans (hloop.eq_none_iff hn)⟩, hresult, htimer,
    hlaunches⟩⟩
  rw [List.append_assoc]

/-- The card never reports power-up, and is asked twice. The timer is loaded for seven milliseconds each time. -/
theorem bringUp_power_up_loop_never_ready :
    let config : Config := { ocrAttempts := .attempts 2, ocrRetryDelayMs := 7 }
    let o := (Card.bringUp config).run.run ({} : Scripted) 300
    o.result = .ok (.error .cardNotReady) ∧ ∃ front loop words, o.accesses = front ++ loop ∧
      launches front = resetScript ∧ PowerUpLoop config (.ok none) words loop ∧ words.length = 2 ∧
        (∀ w ∈ words, ¬ testBit w 31) ∧ o.accesses.count (.write .timerLoad 700000) = 2 := by
  intro config o
  have hresult : o.result = .ok (.error .cardNotReady) := Driver.eq_of_fails (by decide +kernel)
  obtain ⟨-, ⟨-, hready, -⟩ | ⟨front, loop, rest, words, r', hxs, hfront, hloop, hwords, hrest, -⟩⟩ :=
    bringUp_power_up_loop (σ := Scripted) ⟨_, _, hresult, rfl⟩
  · exact absurd rfl hready
  obtain ⟨-, -, hiff⟩ := hwords 2 rfl
  obtain ⟨hlength, hbusy⟩ := hiff.1 rfl
  obtain rfl := (hloop.eq_none_iff rfl).2 ⟨hlength, hbusy⟩
  obtain ⟨_, ⟨⟩⟩ | ⟨rfl, -⟩ := hrest
  rw [List.append_nil] at hxs
  exact ⟨hresult, front, loop, words, hxs, hfront, hloop, hlength, hbusy, by decide +kernel⟩

end SecureDigital

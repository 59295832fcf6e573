import SecureDigital.Proofs.BringUp.Conduct
import SecureDigital.Proofs.Timer
import SecureDigital.Proofs.Transcript

/-!
# Reset and the power-up loop

The first two stages of the bring-up. The reset is a script of two commands. The power-up loop does not
follow the step policy: whatever its commands come back with, it asks for another round until the card
reports power-up or the attempts are used up (`PoweringUp`). A round asks the card (`Asked`) and, unless the
word that comes back has the power-up bit, waits for a whole delay (`PowerUpRound`).
-/

namespace SecureDigital

variable {σ : Type} [Device σ]

namespace Launch

def resetScript : List Launch := [⟨0, 0⟩, ⟨8, 0x1AA⟩]

def powerUpRounds (k : Nat) : List Launch := (List.replicate k [⟨55, 0⟩, ⟨41, 0x70FF8000⟩]).flatten

theorem powerUpRounds_succ (k : Nat) :
    powerUpRounds (k + 1) = powerUpRounds k ++ [⟨55, 0⟩, ⟨41, 0x70FF8000⟩] := by
  rw [powerUpRounds, List.replicate_succ', List.flatten_append, List.flatten_singleton]
  rfl

theorem length_powerUpRounds (k : Nat) : (powerUpRounds k).length = 2 * k := by
  simp [powerUpRounds, Nat.mul_comm]

theorem powerUpRounds_prefix {j k : Nat} (h : j ≤ k) : powerUpRounds j <+: powerUpRounds k := by
  obtain ⟨i, rfl⟩ := Nat.exists_eq_add_of_le h
  rw [powerUpRounds, powerUpRounds, ← List.replicate_append_replicate, List.flatten_append]
  exact List.prefix_append _ _

theorem index_of_mem_powerUpRounds {l : Launch} {k : Nat} (h : l ∈ powerUpRounds k) :
    l.index = 55 ∨ l.index = 41 := by
  obtain ⟨ls, hls, hl⟩ := List.mem_flatten.1 h
  obtain rfl := List.eq_of_mem_replicate hls
  simp only [List.mem_cons, List.not_mem_nil, or_false] at hl
  rcases hl with rfl | rfl
  · exact .inl rfl
  · exact .inr rfl

end Launch

open Launch

/-- Whatever `f` learns about the card, it leaves the configuration as it is. -/
def Card.KeepsConfig {σ : Type} (f : Card → Fallible σ Card) : Prop :=
  ∀ ⦃card card' xs⦄, (f card).run.Runs (.ok (.ok card')) xs → card'.config = card.config

def Card.afterPowerUp (card : Card) : Option UInt32 → Except Error Card
  | some ocr => .ok ({ card with info := card.info.poweredUp ocr }.inState .identification)
  | none => .error .cardNotReady

theorem Card.conducts_reset (card : Card) :
    Conducts card.config (Card.reset card : Fallible σ Card) resetScript fun _ card' =>
      card' = card.inState .readyWait :=
  .lift_bind (.note _) fun _ => .step_bind (Opcode.index_lt .goIdleState) fun _ _ =>
    .lift_bind (.note _) fun _ => .step_bind (Opcode.index_lt .sendIfCond) fun _ _ =>
      .lift_bind (.notes _) fun _ => .of_pure rfl

/-! ### One round -/

namespace Card

def appCommand : Command := .of .appCmd 0 .short

def opCondCommand : Command := .of .sendOpCond operatingCondition .short

end Card

/-- The two commands of a round, the second of which came back with `word`. -/
def Asked (config : Config) (word : UInt32) (xs : List Access) : Prop :=
  ∃ t u : Transcript, t.Valid config Card.appCommand ∧ u.Valid config Card.opCondCommand ∧
    xs = t.accesses Card.appCommand ++ u.accesses Card.opCondCommand ∧ u.response.word 3 = word

/-- How one round may go. -/
inductive PowerUpRound (config : Config) : Except Halt (Option UInt32) → List Access → Prop
  | ready {word : UInt32} {xs : List Access} (hasked : Asked config word xs) (hready : testBit word 31) :
      PowerUpRound config (.ok (some word)) xs
  | waited {word : UInt32} {xs ys : List Access} (hasked : Asked config word xs) (hbusy : ¬ testBit word 31)
      (hdelay : Timer.Elapsed config.sysClkHz config.ocrRetryDelayMs ys) : PowerUpRound config (.ok none) (xs ++ ys)
  | inAppCmd {e : Halt} {xs : List Access} (hrun : Executed config Card.appCommand (.error e) xs) :
      PowerUpRound config (.error e) xs
  | inOpCond {t : Transcript} {e : Halt} {ys : List Access} (hvalid : t.Valid config Card.appCommand)
      (hrun : Executed config Card.opCondCommand (.error e) ys) :
      PowerUpRound config (.error e) (t.accesses Card.appCommand ++ ys)
  | inDelay {word : UInt32} {e : Halt} {xs ys : List Access} (hasked : Asked config word xs) (hbusy : ¬ testBit word 31)
      (htimer : ∀ a ∈ ys, a.isTimer) : PowerUpRound config (.error e) (xs ++ ys)

namespace Driver.Runs

variable {config : Config} {xs : List Access}

theorem round {r : Except Halt (Option UInt32)}
    (h : (Card.powerUpRound config : Driver σ (Option UInt32)).Runs r xs) : PowerUpRound config r xs := by
  rcases h.bind with ⟨e, rfl, happ⟩ | ⟨_, ys, _, rfl, happ, h₁⟩
  · exact .inAppCmd happ.execute
  obtain ⟨t, ht, rfl, -⟩ := happ.exists_transcript
  rcases h₁.bind with ⟨e, rfl, hcond⟩ | ⟨_, us, vs, rfl, hcond, h₂⟩
  · exact .inOpCond ht hcond.execute
  obtain ⟨u, hu, rfl, rfl⟩ := hcond.exists_transcript
  have hasked : Asked config (u.reply Card.opCondCommand).short
      (t.accesses Card.appCommand ++ u.accesses Card.opCondCommand) := ⟨t, u, ht, hu, rfl, rfl⟩
  rw [← List.append_assoc]
  split at h₂
  case isTrue hready =>
    obtain ⟨rfl, rfl⟩ := h₂.of_pure
    rw [List.append_nil]
    exact .ready hasked hready
  case isFalse hbusy =>
    rcases h₂.bind with ⟨e, rfl, hdelay⟩ | ⟨_, vs, ws, rfl, hdelay, hpure⟩
    · exact .inDelay hasked hbusy (Driver.Confined.delay _ _ hdelay)
    · obtain ⟨rfl, rfl⟩ := hpure.of_pure
      rw [List.append_nil]
      exact .waited hasked hbusy hdelay.elapsed

end Driver.Runs

section Adds

variable {config : Config} {xs : List Access}

theorem Transcript.adds (t : Transcript) (c : Command) :
    Adds (t.accesses c) [c.exchange (c.answers t.cmdEvents t.response t.dataEvents)] :=
  adds_launched fun _ => Command.isReport_answers

theorem Asked.adds {word : UInt32} (h : Asked config word xs) :
    ∃ e f : Exchange, [e, f].map Exchange.launch = powerUpRounds 1 ∧ Adds xs [e, f] ∧ f.responseWord 3 = word := by
  obtain ⟨t, u, -, hu, rfl, rfl⟩ := h
  refine ⟨_, _, ?_, (t.adds _).append (u.adds _), ?_⟩
  · rw [List.map_cons, List.map_singleton, Command.exchange_launch (Opcode.index_lt .appCmd),
      Command.exchange_launch (Opcode.index_lt .sendOpCond)]
    rfl
  · exact congrArg Response.short (Command.exchange_response hu.response)

/-- A round that returns has asked, and says what the second command came back with. -/
theorem PowerUpRound.adds {r : Except Halt (Option UInt32)} (h : PowerUpRound config r xs) :
    (∃ e f : Exchange, r = .ok (if testBit (f.responseWord 3) 31 then some (f.responseWord 3) else none) ∧
        [e, f].map Exchange.launch = powerUpRounds 1 ∧ Adds xs [e, f]) ∨
      ∃ halt es, r = .error halt ∧ es.map Exchange.launch <+: powerUpRounds 1 ∧ Adds xs es := by
  have hquiet {ys : List Access} (h : ∀ a ∈ ys, a.isTimer) : Adds ys [] :=
    .of_isQuiet fun a ha => Access.isQuiet_of_isTimer (h a ha)
  cases h with
  | ready hasked hready =>
    obtain ⟨e, f, hscript, hadds, rfl⟩ := hasked.adds
    exact .inl ⟨e, f, by rw [if_pos hready], hscript, hadds⟩
  | waited hasked hbusy hdelay =>
    obtain ⟨e, f, hscript, hadds, rfl⟩ := hasked.adds
    exact .inl ⟨e, f, by rw [if_neg hbusy], hscript, hadds.append (hquiet hdelay.isTimer)⟩
  | inAppCmd hrun =>
    obtain ⟨_, ⟨⟩, -⟩ | ⟨_, es, -, hes, hadds⟩ := hrun.adds (Opcode.index_lt .appCmd)
    exact .inr ⟨_, es, rfl, hes.trans (List.prefix_append [_] _), hadds⟩
  | @inOpCond t _ _ _ hrun =>
    obtain ⟨_, ⟨⟩, -⟩ | ⟨_, es, -, hes, hadds⟩ := hrun.adds (Opcode.index_lt .sendOpCond)
    refine .inr ⟨_, _ :: es, rfl, ?_, (t.adds _).append hadds⟩
    rw [List.map_cons, Command.exchange_launch (Opcode.index_lt .appCmd)]
    exact (List.prefix_cons_inj _).2 hes
  | inDelay hasked _ htimer =>
    obtain ⟨e, f, hscript, hadds, -⟩ := hasked.adds
    exact .inr ⟨_, [e, f], rfl, hscript ▸ List.prefix_rfl, hadds.append (hquiet htimer)⟩

end Adds

/-- Whether the exchange is an SD_SEND_OP_COND with the power-up bit in its response word. -/
def Exchange.ready (e : Exchange) : Bool := e.index = 41 ∧ testBit (e.responseWord 3) 31

theorem Exchange.not_ready {e : Exchange} (h : e.index ≠ 41) : ¬ e.ready := fun he => h (of_decide_eq_true he).1

/-- How the power-up loop may end, having made the exchanges `es`. -/
inductive PoweringUp (config : Config) : Except Halt (Option UInt32) → List Exchange → Prop
  | reported {k : Nat} {es : List Exchange} {e : Exchange}
      (hrounds : (es ++ [e]).map Exchange.launch = powerUpRounds (k + 1)) (hbit : testBit (e.responseWord 3) 31)
      (hidle : ∀ f ∈ es, ¬ f.ready) : PoweringUp config (.ok (some (e.responseWord 3))) (es ++ [e])
  | exhausted {k : Nat} {es : List Exchange} (hrounds : es.map Exchange.launch = powerUpRounds k) :
      PoweringUp config (.ok none) es
  | halted {k : Nat} {halt : Halt} {es : List Exchange}
      (hrounds : es.map Exchange.launch <+: powerUpRounds k) : PoweringUp config (.error halt) es

namespace Driver.Runs

variable {config : Config} {xs : List Access}

theorem index_of_round {e f : Exchange} (h : [e, f].map Exchange.launch = powerUpRounds 1) : e.index = 55 :=
  congrArg Launch.index (List.cons.inj h).1

theorem idle_rounds {idle : List (List Access)}
    (h : ∀ xs ∈ idle, (Card.powerUpRound config : Driver σ (Option UInt32)).Runs (.ok none) xs) :
    ∃ es, Adds idle.flatten es ∧ es.map Exchange.launch = powerUpRounds idle.length ∧ ∀ e ∈ es, ¬ e.ready := by
  induction idle with
  | nil => exact ⟨[], .nil, rfl, nofun⟩
  | cons xs idle ih =>
    obtain ⟨hxs, hidle⟩ := List.forall_mem_cons.1 h
    obtain ⟨es, hadds, hes, hready⟩ := ih hidle
    obtain ⟨e, f, hr, hscript, hround⟩ | ⟨_, _, ⟨⟩, -⟩ := hxs.round.adds
    refine ⟨[e, f] ++ es, hround.append hadds, ?_, ?_⟩
    · rw [List.map_append, hscript, hes]
      rfl
    · have he : ¬ e.ready := Exchange.not_ready fun h => absurd (h.symm.trans (index_of_round hscript)) (by decide)
      have hf : ¬ f.ready := fun hf => by rw [if_pos (of_decide_eq_true hf).2] at hr; cases hr
      simpa [he, hf] using hready

theorem halted_round {e : Halt}
    (h : xs = [] ∨ (Card.powerUpRound config : Driver σ (Option UInt32)).Runs (.error e) xs) :
    ∃ fs, Adds xs fs ∧ fs.map Exchange.launch <+: powerUpRounds 1 := by
  rcases h with rfl | hround
  · exact ⟨[], .nil, List.nil_prefix⟩
  obtain ⟨_, _, hr, -⟩ | ⟨_, fs, -, hfs, hadds⟩ := hround.round.adds
  · cases hr
  · exact ⟨fs, hadds, hfs⟩

theorem powerUp_loop {r : Except Halt (Option UInt32)}
    (h : (config.ocrAttempts.poll (Card.powerUpRound config) : Driver σ (Option UInt32)).Runs r xs) :
    ∃ es, Adds xs es ∧ PoweringUp config r es := by
  cases h.poll with
  | @hit idle _ _ hidle _ hlast =>
    obtain ⟨es, hadds, hes, hready⟩ := idle_rounds hidle
    obtain ⟨e, f, hr, hscript, hround⟩ | ⟨_, _, ⟨⟩, -⟩ := hlast.round.adds
    have hrounds : (es ++ [e, f]).map Exchange.launch = powerUpRounds (idle.length + 1) := by
      rw [powerUpRounds_succ, ← hes, List.map_append, hscript]
      rfl
    rw [List.append_cons] at hrounds
    split at hr
    case isTrue hbit =>
      obtain rfl := Option.some.inj (Except.ok.inj hr)
      have he : ¬ e.ready := Exchange.not_ready fun h => absurd (h.symm.trans (index_of_round hscript)) (by decide)
      refine ⟨es ++ [e] ++ [f], by simpa using hadds.append hround, .reported hrounds hbit ?_⟩
      simpa [he, or_imp, forall_and] using hready
    case isFalse => cases hr
  | spent hidle =>
    obtain ⟨es, hadds, hes, -⟩ := idle_rounds hidle
    exact ⟨es, hadds, .exhausted hes⟩
  | @halted idle _ ys hidle _ hlast =>
    obtain ⟨es, hadds, hes, -⟩ := idle_rounds hidle
    obtain ⟨fs, hadds', hfs⟩ := halted_round hlast
    refine ⟨es ++ fs, hadds.append hadds', .halted (k := idle.length + 1) ?_⟩
    rw [List.map_append, hes, powerUpRounds_succ]
    exact (List.prefix_append_right_inj _).2 hfs

/-- The stage is its loop, and what the driver makes of the end of it. -/
theorem of_powerUp {card : Card} {r : Except Halt (Except Error Card)}
    (h : (Card.powerUp card : Fallible σ Card).run.Runs r xs) :
    ∃ r', (card.config.ocrAttempts.poll (Card.powerUpRound card.config) : Driver σ (Option UInt32)).Runs r' xs ∧
      r = r'.map card.afterPowerUp := by
  rcases h.of_lift_notes_bind.bindLift with ⟨halt, rfl, hloop⟩ | ⟨ocr, ys, zs, rfl, hloop, hrest⟩
  · exact ⟨.error halt, hloop, rfl⟩
  · rcases ocr with _ | ocr
    all_goals
      obtain ⟨rfl, rfl⟩ := hrest.of_lift_notes_bind.of_pure
      rw [List.append_nil]
      exact ⟨_, hloop, rfl⟩

theorem powerUp {card : Card} {r : Except Halt (Except Error Card)}
    (h : (Card.powerUp card : Fallible σ Card).run.Runs r xs) :
    ∃ fs r', Adds xs fs ∧ PoweringUp card.config r' fs ∧ r = r'.map card.afterPowerUp := by
  obtain ⟨r', hloop, hr⟩ := h.of_powerUp
  obtain ⟨fs, hadds, hfs⟩ := hloop.powerUp_loop
  exact ⟨fs, r', hadds, hfs, hr⟩

end Driver.Runs

theorem Card.keepsConfig_reset : KeepsConfig (σ := σ) reset := by
  intro card card' xs hrun
  obtain ⟨es, -, hes⟩ := conducts_reset card hrun
  cases hes with
  | completed _ _ hcard => rw [hcard, inState]

theorem Card.keepsConfig_powerUp : KeepsConfig (σ := σ) powerUp := by
  intro card card' xs hrun
  obtain ⟨fs, r', -, hfs, hr⟩ := hrun.powerUp
  cases hfs <;> cases hr
  rfl

end SecureDigital

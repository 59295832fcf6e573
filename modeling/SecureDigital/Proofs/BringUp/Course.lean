import SecureDigital.Proofs.BringUp.Stages

/-!
# The course of a bring-up

`Course config r xs es fs gs`: a run of the bring-up with the accesses `xs` ends in `r`, and its
exchanges are `es` in the reset, `fs` in the power-up loop and `gs` from the identification on. Every
run has a course (`exists_course`), and what one says of a bring-up is read off it. The addressed
commands carry the address that the card has published among `gs`.
-/

namespace SecureDigital

variable {σ : Type}

/-- The address that the card publishes, the upper half of the last response word to SEND_RELATIVE_ADDR; 0 if that did not
pass. -/
def publishedAddress (es : List Exchange) : UInt16 :=
  ((es.find? (·.index = 3)).bind fun e => e.onSuccess (e.responseWord 3 >>> 16).toUInt16).getD 0

def publishedArgument (es : List Exchange) : UInt32 := (publishedAddress es).toUInt32 <<< 16

namespace Launch

def identifyScript : List Launch := [⟨2, 0⟩, ⟨3, 0⟩]

/-- The commands after the identification. Those on the last lines need the scratch buffer, but for the
last one. -/
def addressedScript (config : Config) (address : UInt32) : List Launch :=
  [⟨10, address⟩, ⟨9, address⟩, ⟨7, address⟩, ⟨55, address⟩, ⟨6, 2⟩] ++
    (if config.scratchAddress.isSome then
      [⟨6, (0x80FFFFF0 : UInt32) ||| UInt32.ofNat config.accessMode.code.toNat⟩,
        ⟨6, (0x80FFF0FF : UInt32) ||| UInt32.ofNat config.driverStrength.code.toNat <<< 8⟩, ⟨55, address⟩, ⟨51, 0⟩]
    else []) ++
    [⟨16, 512⟩]

/-- The addressed commands before the operating clock is set. -/
def negotiationScript (config : Config) (address : UInt32) : List Launch :=
  [⟨10, address⟩, ⟨9, address⟩, ⟨7, address⟩, ⟨55, address⟩, ⟨6, 2⟩] ++
    if config.scratchAddress.isSome then
      [⟨6, (0x80FFFFF0 : UInt32) ||| UInt32.ofNat config.accessMode.code.toNat⟩,
        ⟨6, (0x80FFF0FF : UInt32) ||| UInt32.ofNat config.driverStrength.code.toNat <<< 8⟩]
    else []

/-- The commands after that. -/
def closingScript (config : Config) (address : UInt32) : List Launch :=
  (if config.scratchAddress.isSome then [⟨55, address⟩, ⟨51, 0⟩] else []) ++ [⟨16, 512⟩]

theorem addressedScript_eq (config : Config) (address : UInt32) :
    addressedScript config address = negotiationScript config address ++ closingScript config address := by
  unfold addressedScript negotiationScript closingScript
  cases config.scratchAddress <;> rfl

theorem index_of_mem_negotiationScript (config : Config) (address : UInt32) :
    ∀ l ∈ negotiationScript config address, l.index ∈ [10, 9, 7, 55, 6] := by
  unfold negotiationScript
  split <;> simp

theorem index_of_mem_closingScript (config : Config) (address : UInt32) :
    ∀ l ∈ closingScript config address, l.index ∈ [55, 51, 16] := by
  unfold closingScript
  split <;> simp

end Launch

open Launch

namespace Card

theorem switchArgument_accessMode (mode : AccessMode) :
    switchArgument accessModeGroup mode.code = (0x80FFFFF0 : UInt32) ||| UInt32.ofNat mode.code.toNat := by
  cases mode <;> decide

theorem switchArgument_driverStrength (strength : DriverStrength) :
    switchArgument driverStrengthGroup strength.code =
      (0x80FFF0FF : UInt32) ||| UInt32.ofNat strength.code.toNat <<< 8 := by
  cases strength <;> decide

/-- The card when its power-up has been reported by the word `ocr`. -/
def poweredUp (config : Config) (ocr : UInt32) : Card :=
  ⟨config, ⟨0, .identification⟩, CardInfo.unknown.poweredUp ocr⟩

section Stages

variable [Device σ]

/-- What the driver and the card agree on before the operating clock is set. -/
def negotiate (card : Card) : Fallible σ Card :=
  readRegisters card >>= fun card => select card >>= fun card => widenBus card >>= switchFunctions

def close (card : Card) : Fallible σ Card := readScr card >>= setBlockLength

def configure (card : Card) : Fallible σ Card :=
  readRegisters card >>= fun card => select card >>= fun card => widenBus card >>= fun card =>
    switchFunctions card >>= fun card => setClock card >>= fun card => readScr card >>= setBlockLength

theorem configure_eq (card : Card) : (configure card : Fallible σ Card) = negotiate card >>= fun card =>
    setClock card >>= close := by
  simp only [configure, negotiate, bind_assoc]
  rfl

theorem stage_negotiate : Stage (σ := σ) negotiate negotiationScript := by
  have hwiden := stage_widenBus.andThen (stage_switchFunctions (σ := σ)) (by simp)
  have hselect := stage_select.andThen hwiden (by simp)
  have hregisters := stage_readRegisters.andThen hselect (by simp)
  intro card
  have hcard := hregisters card
  simp only [switchArgument_accessMode, switchArgument_driverStrength] at hcard
  exact hcard

theorem stage_close : Stage (σ := σ) close closingScript :=
  stage_readScr.andThen stage_setBlockLength fun config address => by split <;> simp

theorem stage_configure : Stage (σ := σ) configure addressedScript := by
  have hclock := stage_setClock.andThen (stage_close (σ := σ)) (by simp)
  have hwhole := stage_negotiate.andThen hclock fun config address l hl hindex => by
    have hmem := index_of_mem_negotiationScript config address l hl
    rw [hindex] at hmem
    exact absurd hmem (by decide)
  intro card
  rw [configure_eq, addressedScript_eq]
  exact hwhole card

theorem bringUp_eq (config : Config) :
    (bringUp config : Fallible σ Card) =
      (do
        ExceptT.lift (prepare config)
        let card ← reset (.fresh config)
        let card ← powerUp card
        let card ← identify card
        configure card) :=
  rfl

theorem confined_prepare (config : Config) : (prepare config : Driver σ Unit).Confined Access.isQuiet :=
  .bind (.write rfl) fun _ => .bind (.write rfl) fun _ =>
    .bind ((Driver.Confined.program _).mono fun _ => Access.isQuiet_of_isClock) fun _ =>
      (Driver.Confined.delay _ _).mono fun _ => Access.isQuiet_of_isTimer

end Stages

end Card

section Identification

variable {card : Card} {es : List Exchange}

/-- After the identification the card has the address that it has published. -/
theorem learn_identified (hrca : card.session.rca = 0) (h : es.map Exchange.launch = identifyScript)
    (gs : List Exchange) : (es.foldl Card.learn card).session.rca = publishedAddress (es ++ gs) := by
  obtain ⟨e, fs, rfl, he, hfs⟩ := List.map_eq_cons_iff.1 h
  obtain ⟨f, fs, rfl, hf, hnil⟩ := List.map_eq_cons_iff.1 hfs
  obtain rfl := List.map_eq_nil_iff.1 hnil
  have hskip : e.index = 2 := congrArg Launch.index he
  have hindex : f.index = 3 := congrArg Launch.index hf
  rw [List.foldl_cons, List.foldl_cons, List.foldl_nil, Card.learn_of_launch he rfl, Card.learn, if_pos hindex]
  simp only [publishedAddress, List.cons_append, List.find?_cons, hskip, hindex]
  by_cases hok : f.status = .ok <;> simp [Exchange.onSuccess, hok, hrca]

variable [Device σ]

theorem conducted_identify {r : Except Halt (Except Error Card)} {xs : List Access} (hrca : card.session.rca = 0)
    (hrun : (Card.identify card >>= Card.configure : Fallible σ Card).run.Runs r xs) :
    ∃ gs, Adds xs gs ∧ Conducted card.config
      (identifyScript ++ addressedScript card.config (publishedArgument gs))
      (fun gs card' => card' = gs.foldl Card.learn card ∧ ∀ e ∈ gs, e.Delivered card.config) r xs gs := by
  rcases hrun.bindFallible with ⟨h, rfl, hstop⟩ | ⟨e, rfl, hstop⟩ | ⟨card', ys, zs, rfl, hys, hzs⟩
  · obtain ⟨es, hadds, hes⟩ := Card.stage_identify card hstop
    exact ⟨es, hadds, hes.error_of_halt _ (List.prefix_append _ _)⟩
  · obtain ⟨es, hadds, hes⟩ := Card.stage_identify card hstop
    exact ⟨es, hadds, hes.error_of_error _ (List.prefix_append _ _)⟩
  · obtain ⟨es, hadds, ⟨hscript, hpassed, rfl, hes⟩⟩ := Card.stage_identify card hys
    obtain ⟨gs, hadds', hgs⟩ := Card.stage_configure _ hzs
    rw [Card.foldl_learn_config] at hgs
    have haddress : (es.foldl Card.learn card).session.addressArgument = publishedArgument (es ++ gs) :=
      congrArg (fun rca : UInt16 => rca.toUInt32 <<< 16) (learn_identified hrca hscript gs)
    rw [haddress] at hgs
    refine ⟨es ++ gs, hadds.append hadds', .prepend hscript hpassed (fun fs a ha => ?_) hgs⟩
    refine ⟨by rw [ha.1, List.foldl_append], fun e he => ?_⟩
    exact (List.mem_append.1 he).elim (hes e) (ha.2 e)

end Identification

/-- How a run of the bring-up may go. -/
inductive Course (config : Config) : Except Halt (Except Error Card) → List Access →
    List Exchange → List Exchange → List Exchange → Prop
  | inReset {r : Except Halt (Except Error Card)} {xs : List Access} {es : List Exchange}
      (hreset : Conducted config resetScript (fun _ _ => False) r xs es) : Course config r xs es [] []
  | inPowerUp {k : Nat} {halt : Halt} {xs : List Access} {es fs : List Exchange}
      (hreset : es.map Exchange.launch = resetScript)
      (hpassed : config.stepPolicy = .abort → ∀ e ∈ es, e.status = .ok)
      (hrounds : fs.map Exchange.launch <+: powerUpRounds k) : Course config (.error halt) xs es fs []
  | notReady {k : Nat} {xs : List Access} {es fs : List Exchange}
      (hreset : es.map Exchange.launch = resetScript)
      (hpassed : config.stepPolicy = .abort → ∀ e ∈ es, e.status = .ok)
      (hrounds : fs.map Exchange.launch = powerUpRounds k) :
      Course config (.ok (.error .cardNotReady)) xs es fs []
  | poweredUp {k : Nat} {r : Except Halt (Except Error Card)} {xs : List Access} {es fs gs : List Exchange}
      {e : Exchange} (hreset : es.map Exchange.launch = resetScript)
      (hpassed : config.stepPolicy = .abort → ∀ e ∈ es, e.status = .ok)
      (hrounds : (fs ++ [e]).map Exchange.launch = powerUpRounds (k + 1)) (hbit : testBit (e.responseWord 3) 31)
      (hrest : Conducted config (identifyScript ++ addressedScript config (publishedArgument gs))
        (fun gs card => card = gs.foldl Card.learn (.poweredUp config (e.responseWord 3)) ∧
          ∀ e ∈ gs, e.Delivered config) r xs gs) (hidle : ∀ f ∈ fs, ¬ f.ready) :
      Course config r xs es (fs ++ [e]) gs

/-- A bring-up that returned a card has gone through the whole script; under the abort policy, without a
failure. -/
theorem Course.completed {config : Config} {card : Card} {xs : List Access} {es fs gs : List Exchange}
    (h : Course config (.ok (.ok card)) xs es fs gs) :
    ∃ address, gs.map Exchange.launch = identifyScript ++ addressedScript config address ∧
      (config.stepPolicy = .abort → (∀ e ∈ es, e.status = .ok) ∧ ∀ e ∈ gs, e.status = .ok) := by
  cases h with
  | inReset hreset =>
    cases hreset with
    | completed _ _ hfalse => exact hfalse.elim
  | poweredUp _ hpassed _ _ hrest =>
    cases hrest with
    | completed hscript hpassed' _ => exact ⟨_, hscript, fun hpolicy => ⟨hpassed hpolicy, hpassed' hpolicy⟩⟩

theorem exists_course [Device σ] {config : Config} {r : Except Halt (Except Error Card)} {xs : List Access}
    (h : (Card.bringUp config : Fallible σ Card).run.Runs r xs) :
    ∃ es fs gs, exchanges xs = es ++ fs ++ gs ∧ Course config r xs es fs gs := by
  rw [Card.bringUp_eq] at h
  have hquiet := Card.confined_prepare (σ := σ) config
  rcases h.bindLift with ⟨_, rfl, hstop⟩ | ⟨_, ps, ys, rfl, hprepare, h₁⟩
  · exact ⟨[], [], [], (hquiet.adds_nil hstop).exchanges_eq, .inReset (.halted List.nil_prefix fun _ _ => nofun)⟩
  have hps := hquiet.adds_nil hprepare
  rcases h₁.bindFallible with ⟨_, rfl, hstop⟩ | ⟨_, rfl, hstop⟩ | ⟨card, us, zs, rfl, hus, h₂⟩
  · obtain ⟨es, hadds, hes⟩ := Card.conducts_reset _ hstop
    exact ⟨es, [], [], by simpa using (hps.append hadds).exchanges_eq,
      .inReset ((hes.error_of_halt _ List.prefix_rfl).after ps)⟩
  · obtain ⟨es, hadds, hes⟩ := Card.conducts_reset _ hstop
    exact ⟨es, [], [], by simpa using (hps.append hadds).exchanges_eq,
      .inReset ((hes.error_of_error _ List.prefix_rfl).after ps)⟩
  obtain ⟨es, hes, ⟨hreset, hpassed, rfl⟩⟩ := Card.conducts_reset _ hus
  rcases h₂.bindFallible with ⟨_, rfl, hstop⟩ | ⟨_, rfl, hstop⟩ | ⟨card, vs, ws, rfl, hvs, h₃⟩
  · obtain ⟨fs, r', hadds, hfs, hr⟩ := hstop.powerUp
    refine ⟨es, fs, [], by simpa using (hps.append (hes.append hadds)).exchanges_eq, ?_⟩
    rcases hfs with _ | _ | hrounds <;> cases hr
    exact .inPowerUp hreset hpassed hrounds
  · obtain ⟨fs, r', hadds, hfs, hr⟩ := hstop.powerUp
    refine ⟨es, fs, [], by simpa using (hps.append (hes.append hadds)).exchanges_eq, ?_⟩
    rcases hfs with _ | hrounds | _ <;> cases hr
    exact .notReady hreset hpassed hrounds
  obtain ⟨fs, r', hadds, hfs, hr⟩ := hvs.powerUp
  rcases hfs with @⟨k, fs, e, hrounds, hbit, hidle⟩ | _ | _ <;> cases hr
  obtain ⟨gs, hadds', hgs⟩ := conducted_identify rfl h₃
  refine ⟨es, fs ++ [e], gs, by simpa using (hps.append (hes.append (hadds.append hadds'))).exchanges_eq, ?_⟩
  rw [← List.append_assoc, ← List.append_assoc]
  exact .poweredUp hreset hpassed hrounds hbit (hgs.after _) hidle

end SecureDigital

import SecureDigital.Proofs.BringUp.Script

/-!
# What the bring-up tells about the card

`Card.ToldBy config es card`: each field of the card is what the exchanges `es` say about it, and a command
that failed says nothing. A field holds what the last exchange that sets it has set (`foldl_learn_last`);
the protocol state is set in three parts of the script, one after the other (`foldl_learn_state`).
-/

namespace SecureDigital

open Launch

def Exchange.is (index : UInt8) (e : Exchange) : Bool := e.index = index

/-- The last exchange of the command `index`. -/
def lastOf (index : UInt8) (es : List Exchange) : Option Exchange := es.findRev? (·.is index)

theorem isSome_findRev? (p : Exchange → Bool) (es : List Exchange) : (es.findRev? p).isSome = es.any p := by
  rw [Bool.eq_iff_iff, List.findRev?_eq_find?_reverse, List.find?_isSome]
  simp

namespace Exchange

def passed (index : UInt8) (e : Exchange) : Bool := e.index = index ∧ e.status = .ok

def switched (e : Exchange) : Bool := e.launch.isSwitch ∧ e.status = .ok

/-- Whether the card took the configured access mode: the switch of group 1 passed, and its status block
has the mode selected. -/
def takesMode (config : Config) (e : Exchange) : Bool :=
  e.launch = ⟨6, (0x80FFFFF0 : UInt32) ||| UInt32.ofNat config.accessMode.code.toNat⟩ ∧ e.status = .ok ∧
    (e.switchBlock? config).any fun block =>
      (SwitchStatus.decode block).selectedIn Card.accessModeGroup = config.accessMode.code

end Exchange

/-- The protocol state that the exchanges lead to. -/
def CardState.told (config : Config) (es : List Exchange) : CardState :=
  if es.any (·.takesMode config) then .transfer config.accessMode
  else if es.any (·.passed 7) then .transfer .sdr12
  else if es.any (·.passed 3) then .standBy
  else .identification

structure Card.ToldBy (config : Config) (es : List Exchange) (card : Card) : Prop where
  config_eq : card.config = config
  rca : card.session.rca = publishedAddress es
  state : card.session.state = .told config es
  cid : card.info.cid = (lastOf 10 es).bind fun e => e.onSuccess (Cid.decode e.responseBits)
  csd : card.info.csd = (lastOf 9 es).bind fun e => e.onSuccess (Csd.decode e.responseBits)
  scr : card.info.scr = (es.findRev? (·.passed 51)).bind fun e => (e.scrBlock? config).map Scr.decode
  scr_isSome : card.info.scr.isSome ↔ config.scratchAddress.isSome ∧ es.any (·.passed 51)
  switchStatus : card.info.switchStatus =
    (es.findRev? (·.switched)).bind fun e => (e.switchBlock? config).map SwitchStatus.decode
  switchStatus_isSome : card.info.switchStatus.isSome ↔ es.any (·.switched)
  ocr : some card.info.ocr = (lastOf 41 es).map fun e => e.responseWord 3
  highCapacity : card.info.highCapacity = card.info.ocr.toNat.testBit 30

namespace Card

section Learning

variable {config : Config} {card : Card} {es : List Exchange}

/-- A field of the info stays as it is, unless the exchange is of a command that sets it. -/
theorem learn_field {β : Type} (field : CardInfo → β) {e : Exchange}
    (hcid : e.index = 10 → ∀ info cid, field { info with cid } = field info)
    (hcsd : e.index = 9 → ∀ info csd, field { info with csd } = field info)
    (hswitch : e.switched → ∀ info switchStatus, field { info with switchStatus } = field info)
    (hscr : e.passed 51 → ∀ info scr, field { info with scr } = field info) (card : Card) :
    field (card.learn e).info = field card.info := by
  unfold learn
  split
  · rfl
  split
  case isTrue hindex => exact hcid hindex _ _
  split
  case isTrue hindex => exact hcsd hindex _ _
  split
  · rfl
  split
  case isTrue hpassed =>
    split
    · exact hswitch (decide_eq_true hpassed) _ _
    · rfl
  split
  case isTrue hpassed =>
    split
    · exact hscr (decide_eq_true hpassed) _ _
    · rfl
  case isFalse => rfl

/-- What the power-up loop has told stays. -/
theorem foldl_learn_poweredUp (card : Card) (es : List Exchange) :
    (es.foldl learn card).info.ocr = card.info.ocr ∧
      (es.foldl learn card).info.highCapacity = card.info.highCapacity := by
  refine Prod.mk.inj ?_
  induction es generalizing card with
  | nil => rfl
  | cons e es ih =>
    refine (ih _).trans (learn_field (fun info => (info.ocr, info.highCapacity)) ?_ ?_ ?_ ?_ card) <;>
      exact fun _ _ _ => rfl

theorem learn_scr {e : Exchange} (hconfig : card.config = config) (he : e.Delivered config) :
    (card.learn e).info.scr = if e.passed 51 then (e.scrBlock? config).map Scr.decode else card.info.scr := by
  subst hconfig
  by_cases hpassed : e.passed 51
  · obtain ⟨hindex, hok⟩ := of_decide_eq_true hpassed
    obtain ⟨block, hblock⟩ := Option.isSome_iff_exists.1 (he.scr hindex hok)
    rw [if_pos hpassed, hblock]
    simp [learn, Exchange.launch, Launch.isSwitch, hindex, hok, hblock]
  · rw [if_neg hpassed]
    exact learn_field (·.scr) (fun _ _ _ => rfl) (fun _ _ _ => rfl) (fun _ _ _ => rfl) (fun h => absurd h hpassed) card

theorem learn_switchStatus {e : Exchange} (hconfig : card.config = config) (he : e.Delivered config) :
    (card.learn e).info.switchStatus =
      if e.switched then (e.switchBlock? config).map SwitchStatus.decode else card.info.switchStatus := by
  subst hconfig
  by_cases hpassed : e.switched
  · obtain ⟨hswitch, hok⟩ := of_decide_eq_true hpassed
    obtain ⟨block, hblock⟩ := Option.isSome_iff_exists.1 (he.switch hswitch hok)
    rw [if_pos hpassed, learn_of_isSwitch hswitch, if_pos hok, hblock]
    rfl
  · rw [if_neg hpassed]
    exact learn_field (·.switchStatus) (fun _ _ _ => rfl) (fun _ _ _ => rfl) (fun h => absurd h hpassed)
      (fun _ _ _ => rfl) card

theorem switched_of_takesMode {e : Exchange} (h : e.takesMode config) : e.switched := by
  obtain ⟨hlaunch, hok, -⟩ := of_decide_eq_true h
  rw [← switchArgument_accessMode] at hlaunch
  exact decide_eq_true ⟨hlaunch ▸ isSwitch_switchArgument _ _, hok⟩

theorem learn_state_of_other {e : Exchange} (hrca : ¬ e.passed 3) (hselect : ¬ e.passed 7) (hswitch : ¬ e.switched) :
    (card.learn e).session.state = card.session.state := by
  simp only [Exchange.passed, Exchange.switched, decide_eq_true_eq, not_and] at hrca hselect hswitch
  unfold learn
  split
  case isTrue hindex => simp [Exchange.onSuccess, hrca hindex]
  · repeat' split
    all_goals first | rfl | simp_all

theorem learn_state_of_switched {e : Exchange} (h : e.switched) : (card.learn e).session.state =
    if e.takesMode card.config then .transfer card.config.accessMode else card.session.state := by
  obtain ⟨hswitch, hok⟩ := of_decide_eq_true h
  have hindex : e.index = 6 := (of_decide_eq_true hswitch).1
  rw [learn_of_isSwitch hswitch, if_pos hok]
  cases hblock : e.switchBlock? card.config with
  | none => simp [Exchange.takesMode, hblock]
  | some block =>
    simp [learnSwitch, switchArgument_accessMode, Exchange.takesMode, Exchange.launch, hindex, hblock, hok]

theorem learn_state (card : Card) (e : Exchange) : (card.learn e).session.state =
    if e.takesMode card.config then .transfer card.config.accessMode
    else if e.passed 7 then .transfer .sdr12
    else if e.passed 3 then .standBy
    else card.session.state := by
  by_cases hswitch : e.switched
  · have hindex : e.index = 6 := (of_decide_eq_true (of_decide_eq_true hswitch).1).1
    simp [learn_state_of_switched hswitch, Exchange.passed, hindex]
  have htakes : ¬ e.takesMode card.config := fun h => hswitch (switched_of_takesMode h)
  rw [if_neg htakes]
  by_cases hselect : e.passed 7
  · obtain ⟨hindex, hok⟩ := of_decide_eq_true hselect
    simp [learn, hselect, hindex, hok, inState]
  rw [if_neg hselect]
  by_cases hrca : e.passed 3
  · obtain ⟨hindex, hok⟩ := of_decide_eq_true hrca
    simp [learn, hrca, hindex, Exchange.onSuccess, hok]
  rw [if_neg hrca, learn_state_of_other hrca hselect hswitch]

/-- A field that only certain exchanges set is as the last of them has set it. -/
theorem foldl_learn_last {β : Type} (field : Card → β) {sets : Exchange → Bool} {value : Exchange → β}
    (hstep : ∀ card : Card, card.config = config → ∀ e ∈ es,
      field (card.learn e) = if sets e then value e else field card)
    (hconfig : card.config = config) :
    field (es.foldl learn card) = ((es.findRev? sets).map value).getD (field card) := by
  induction es generalizing card with
  | nil => rfl
  | cons e es ih =>
    have htail := ih (fun c hc f hf => hstep c hc f (List.mem_cons_of_mem e hf))
      ((learn_config card e).trans hconfig)
    rw [List.foldl_cons, htail, hstep card hconfig e List.mem_cons_self, List.findRev?]
    cases es.findRev? sets with
    | some f => rfl
    | none => by_cases hsets : sets e <;> simp [hsets]

theorem foldl_learn_bind {β : Type} (field : Card → Option β) {sets : Exchange → Bool} {value : Exchange → Option β}
    (hstep : ∀ card : Card, card.config = config → ∀ e ∈ es,
      field (card.learn e) = if sets e then value e else field card)
    (hconfig : card.config = config) (hnone : field card = none) :
    field (es.foldl learn card) = (es.findRev? sets).bind value := by
  rw [foldl_learn_last field hstep hconfig, hnone]
  cases es.findRev? sets <;> rfl

/-- A register that comes in the long response to the command `index`. -/
theorem foldl_learn_register {β : Type} (field : CardInfo → Option β) {index : UInt8} {decode : BitVec 128 → β}
    (hset : ∀ (card : Card) (e : Exchange), e.index = index →
      field (card.learn e).info = e.onSuccess (decode e.responseBits))
    (hkeep : ∀ (card : Card) (e : Exchange), e.index ≠ index → field (card.learn e).info = field card.info)
    (hnone : field card.info = none) :
    field (es.foldl learn card).info = (lastOf index es).bind fun e => e.onSuccess (decode e.responseBits) := by
  refine foldl_learn_bind (fun card => field card.info) (fun card _ e _ => ?_) rfl hnone
  by_cases hindex : e.is index
  · rw [if_pos hindex]
    exact hset card e (of_decide_eq_true hindex)
  · rw [if_neg hindex]
    exact hkeep card e fun h => hindex (decide_eq_true h)

/-- The state after exchanges that can only set it to `state`. -/
theorem foldl_learn_any {sets : Exchange → Bool} {state : CardState}
    (hstep : ∀ card : Card, card.config = config → ∀ e ∈ es,
      (card.learn e).session.state = if sets e then state else card.session.state)
    (hconfig : card.config = config) :
    (es.foldl learn card).session.state = if es.any sets then state else card.session.state := by
  refine (foldl_learn_last (·.session.state) hstep hconfig).trans ?_
  rw [← isSome_findRev?]
  cases es.findRev? sets <;> rfl

/-- The three parts of the script in which the state is set: the identification, the commands up to
SET_BUS_WIDTH and those after. -/
theorem foldl_learn_state {as bs cs : List Exchange} (has : ∀ e ∈ as, ¬ e.passed 7 ∧ ¬ e.switched)
    (hbs : ∀ e ∈ bs, ¬ e.passed 3 ∧ ¬ e.switched) (hcs : ∀ e ∈ cs, ¬ e.passed 3 ∧ ¬ e.passed 7) :
    ((as ++ (bs ++ cs)).foldl learn card).session.state =
      if cs.any (·.takesMode card.config) then .transfer card.config.accessMode
      else if bs.any (·.passed 7) then .transfer .sdr12
      else if as.any (·.passed 3) then .standBy
      else card.session.state := by
  have htakes {c : Card} {e : Exchange} (h : ¬ e.switched) : ¬ e.takesMode c.config := mt switched_of_takesMode h
  rw [List.foldl_append, List.foldl_append]
  have hconfig := foldl_learn_config card as
  have hconfig' := (foldl_learn_config (as.foldl learn card) bs).trans hconfig
  rw [foldl_learn_any (fun c hc e he => ?_) hconfig', foldl_learn_any (fun c _ e he => ?_) rfl,
    foldl_learn_any (fun c _ e he => ?_) rfl]
  · rw [learn_state, if_neg (htakes (has e he).2), if_neg (has e he).1]
  · rw [learn_state, if_neg (htakes (hbs e he).2), if_neg (hbs e he).1]
  · rw [learn_state, if_neg (hcs e he).2, if_neg (hcs e he).1, hc]

end Learning

end Card

/-! ### The whole run -/

section Search

variable {es gs : List Exchange} {p : Exchange → Bool}

theorem findRev?_append (h : ∀ e ∈ es, ¬ p e) : (es ++ gs).findRev? p = gs.findRev? p := by
  have hnone : es.reverse.find? p = none := List.find?_eq_none.2 fun e he => h e (List.mem_reverse.1 he)
  rw [List.findRev?_eq_find?_reverse, List.findRev?_eq_find?_reverse, List.reverse_append, List.find?_append, hnone,
    Option.or_none]

theorem any_append_left (h : ∀ e ∈ es, ¬ p e) : (es ++ gs).any p = gs.any p := by
  rw [List.any_append, List.any_eq_false.2 h, Bool.false_or]

theorem any_append_right (h : ∀ e ∈ gs, ¬ p e) : (es ++ gs).any p = es.any p := by
  rw [List.any_append, List.any_eq_false.2 h, Bool.or_false]

theorem isSome_bind_findRev? {β : Type} {f : Exchange → Option β} (h : ∀ e ∈ gs, p e → (f e).isSome) :
    ((gs.findRev? p).bind f).isSome = gs.any p := by
  rw [← isSome_findRev?]
  cases hfind : gs.findRev? p with
  | none => rfl
  | some e =>
    rw [List.findRev?_eq_find?_reverse] at hfind
    exact h e (List.mem_reverse.1 (List.mem_of_find?_eq_some hfind)) (List.find?_some hfind)

end Search

section Script

variable {config : Config} {es fs gs : List Exchange} {address : UInt32}

theorem of_mem_script {script : List Launch} {P : Launch → Prop} (h : es.map Exchange.launch = script)
    (hP : ∀ l ∈ script, P l) : ∀ e ∈ es, P e.launch :=
  fun e he => hP e.launch (h ▸ List.mem_map_of_mem he)

theorem not_is {e : Exchange} {index : UInt8} (h : e.index ≠ index) : ¬ e.is index :=
  fun his => h (of_decide_eq_true his)

theorem not_passed {e : Exchange} {index : UInt8} (h : e.index ≠ index) : ¬ e.passed index :=
  fun hpassed => h (of_decide_eq_true hpassed).1

theorem not_switched {e : Exchange} (h : e.launch.isSwitch = false) : ¬ e.switched :=
  fun hswitch => absurd (h.symm.trans (of_decide_eq_true hswitch).1) nofun

theorem any_passed_of_script {script : List Launch} {l : Launch} (h : gs.map Exchange.launch = script)
    (hpassed : ∀ e ∈ gs, e.status = .ok) (hl : l ∈ script) : gs.any (·.passed l.index) := by
  obtain ⟨e, he, rfl⟩ := List.mem_map.1 (h ▸ hl)
  exact List.any_eq_true.2 ⟨e, he, decide_eq_true ⟨rfl, hpassed e he⟩⟩

theorem state_eq_told {card : Card} (hcard : card.config = config) (hstate : card.session.state = .identification)
    (hfront : ∀ e ∈ fs, e.index ≠ 3 ∧ e.index ≠ 7 ∧ e.launch.isSwitch = false)
    (hscript : gs.map Exchange.launch = identifyScript ++ addressedScript config address) :
    (gs.foldl Card.learn card).session.state = .told config (fs ++ gs) := by
  rw [addressedScript, List.append_assoc] at hscript
  obtain ⟨as, rest, rfl, has, hrest⟩ := List.map_eq_append_iff.1 hscript
  obtain ⟨bs, cs, rfl, hbs, hcs⟩ := List.map_eq_append_iff.1 hrest
  have has' := of_mem_script (P := fun l => l.index ≠ 7 ∧ l.isSwitch = false) has (by decide)
  -- SET_BUS_WIDTH is among these: it has the index of a switch, but not the argument.
  have hbs' := of_mem_script (P := fun l => l.index ≠ 3 ∧ l.isSwitch = false) hbs (by
    have hnarrow : testBit 2 31 = false := rfl
    simp [Launch.isSwitch, hnarrow])
  have hcs' := of_mem_script (P := fun l => l.index ≠ 3 ∧ l.index ≠ 7) hcs (by split <;> simp)
  have htakes {e : Exchange} (h : e.launch.isSwitch = false) : ¬ e.takesMode config :=
    mt Card.switched_of_takesMode (not_switched h)
  rw [Card.foldl_learn_state (fun e he => ⟨not_passed (has' e he).1, not_switched (has' e he).2⟩)
    (fun e he => ⟨not_passed (hbs' e he).1, not_switched (hbs' e he).2⟩)
    (fun e he => ⟨not_passed (hcs' e he).1, not_passed (hcs' e he).2⟩), hcard, hstate, CardState.told]
  rw [any_append_left fun e he => htakes (hfront e he).2.2, any_append_left fun e he => htakes (has' e he).2,
    any_append_left fun e he => htakes (hbs' e he).2, any_append_left fun e he => not_passed (hfront e he).2.1,
    any_append_left fun e he => not_passed (has' e he).1, any_append_right fun e he => not_passed (hcs' e he).2,
    any_append_left fun e he => not_passed (hfront e he).1, any_append_right fun e he => ?_]
  rcases List.mem_append.1 he with he | he
  · exact not_passed (hbs' e he).1
  · exact not_passed (hcs' e he).1

/-- The word that ended the power-up loop is the answer to the last SD_SEND_OP_COND of the run. -/
theorem lastOf_sendOpCond {k : Nat} {e : Exchange}
    (hrounds : (fs ++ [e]).map Exchange.launch = powerUpRounds (k + 1))
    (hscript : gs.map Exchange.launch = identifyScript ++ addressedScript config address) :
    lastOf 41 (es ++ (fs ++ [e]) ++ gs) = some e := by
  have hlaunch : e.launch = ⟨41, 0x70FF8000⟩ := by
    rw [powerUpRounds_succ, List.map_append] at hrounds
    simpa using congrArg List.getLast? hrounds
  have hlast : e.is 41 := decide_eq_true (congrArg Launch.index hlaunch)
  have hindex := of_mem_script (P := fun l => l.index ≠ 41) hscript (by
    rw [identifyScript, addressedScript]
    split <;> simp)
  have hnone : gs.reverse.find? (·.is 41) = none := by
    refine List.find?_eq_none.2 fun x hx => ?_
    exact not_is (hindex x (List.mem_reverse.1 hx))
  rw [lastOf, List.findRev?_eq_find?_reverse, List.reverse_append, List.find?_append, hnone]
  simp [hlast]

/-- The address that was learned in the identification stays. -/
theorem foldl_learn_published {card : Card} (hrca : card.session.rca = 0)
    (hscript : gs.map Exchange.launch = identifyScript ++ addressedScript config address) :
    (gs.foldl Card.learn card).session.rca = publishedAddress gs := by
  obtain ⟨as, rest, rfl, has, hrest⟩ := List.map_eq_append_iff.1 hscript
  have hindex := of_mem_script (P := fun l => l.index ≠ 3) hrest (by
    rw [addressedScript]
    split <;> simp)
  rw [List.foldl_append, Card.foldl_learn_rca hindex]
  exact learn_identified hrca has rest

theorem toldBy_of_completed {k : Nat} {e : Exchange} (hreset : es.map Exchange.launch = resetScript)
    (hrounds : (fs ++ [e]).map Exchange.launch = powerUpRounds (k + 1))
    (hscript : gs.map Exchange.launch = identifyScript ++ addressedScript config address)
    (hdelivered : ∀ e ∈ gs, e.Delivered config) :
    Card.ToldBy config (es ++ (fs ++ [e]) ++ gs) (gs.foldl Card.learn (.poweredUp config (e.responseWord 3))) := by
  have hconfig : (Card.poweredUp config (e.responseWord 3)).config = config := rfl
  have hfront {x : Exchange} (n : UInt8) (hn : n ∉ [0, 8, 55, 41]) (hx : x ∈ es ++ (fs ++ [e])) : x.index ≠ n :=
    fun h => hn (h ▸ index_of_front hreset hrounds hx)
  have hplain {x : Exchange} (hx : x ∈ es ++ (fs ++ [e])) : x.launch.isSwitch = false :=
    decide_eq_false fun h => hfront 6 (by decide) hx h.1
  have hread : ∀ x ∈ gs, x.passed 51 → (x.scrBlock? config).isSome := by
    intro x hx hpassed
    obtain ⟨hindex, hok⟩ := of_decide_eq_true hpassed
    exact (hdelivered x hx).scr hindex hok
  have hreported : ∀ x ∈ gs, x.switched → (x.switchBlock? config).isSome := by
    intro x hx hpassed
    obtain ⟨hswitch, hok⟩ := of_decide_eq_true hpassed
    exact (hdelivered x hx).switch hswitch hok
  have hscr := Card.foldl_learn_bind (·.info.scr) (fun c hc x hx => Card.learn_scr hc (hdelivered x hx)) hconfig rfl
  have hstatus := Card.foldl_learn_bind (·.info.switchStatus)
    (fun c hc x hx => Card.learn_switchStatus hc (hdelivered x hx)) hconfig rfl
  constructor
  case config_eq => exact Card.foldl_learn_config _ _
  case rca =>
    rw [publishedAddress_front hreset hrounds]
    exact foldl_learn_published rfl hscript
  case state =>
    refine state_eq_told rfl rfl (fun x hx => ?_) hscript
    exact ⟨hfront 3 (by decide) hx, hfront 7 (by decide) hx, hplain hx⟩
  case cid =>
    rw [lastOf, findRev?_append fun x hx => not_is (hfront 10 (by decide) hx)]
    refine Card.foldl_learn_register (·.cid) (fun c x hx => by simp [Card.learn, hx]) (fun c x hx => ?_) rfl
    exact Card.learn_field (·.cid) (fun h => absurd h hx) (fun _ _ _ => rfl) (fun _ _ _ => rfl) (fun _ _ _ => rfl) c
  case csd =>
    rw [lastOf, findRev?_append fun x hx => not_is (hfront 9 (by decide) hx)]
    refine Card.foldl_learn_register (·.csd) (fun c x hx => by simp [Card.learn, hx]) (fun c x hx => ?_) rfl
    exact Card.learn_field (·.csd) (fun _ _ _ => rfl) (fun h => absurd h hx) (fun _ _ _ => rfl) (fun _ _ _ => rfl) c
  case scr =>
    rw [findRev?_append fun x hx => not_passed (hfront 51 (by decide) hx)]
    exact hscr
  case scr_isSome =>
    refine (Bool.eq_iff_iff.1 ((congrArg Option.isSome hscr).trans (isSome_bind_findRev? ?_))).trans ?_
    · intro x hx hpassed
      rw [Option.isSome_map]
      exact hread x hx hpassed
    · rw [any_append_left fun x hx => not_passed (hfront 51 (by decide) hx), iff_and_self, List.any_eq_true]
      rintro ⟨x, hx, hpassed⟩
      exact Option.isSome_of_isSome_bind (hread x hx hpassed)
  case switchStatus =>
    rw [findRev?_append fun x hx => not_switched (hplain hx)]
    exact hstatus
  case switchStatus_isSome =>
    refine (Bool.eq_iff_iff.1 ((congrArg Option.isSome hstatus).trans (isSome_bind_findRev? ?_))).trans ?_
    · intro x hx hpassed
      rw [Option.isSome_map]
      exact hreported x hx hpassed
    · rw [any_append_left fun x hx => not_switched (hplain hx)]
  case ocr =>
    rw [(Card.foldl_learn_poweredUp _ _).1, lastOf_sendOpCond hrounds hscript]
    rfl
  case highCapacity =>
    rw [(Card.foldl_learn_poweredUp _ _).1, (Card.foldl_learn_poweredUp _ _).2]
    rfl

theorem Course.toldBy {card : Card} {xs : List Access} (h : Course config (.ok (.ok card)) xs es fs gs) :
    Card.ToldBy config (es ++ fs ++ gs) card := by
  cases h with
  | inReset hreset =>
    cases hreset with
    | completed _ _ hfalse => exact hfalse.elim
  | poweredUp hreset _ hrounds _ hrest =>
    cases hrest with
    | completed hscript _ hcard =>
      obtain ⟨rfl, hdelivered⟩ := hcard
      exact toldBy_of_completed hreset hrounds hscript hdelivered

theorem Course.passed_of_abort {card : Card} {xs : List Access} (h : Course config (.ok (.ok card)) xs es fs gs)
    (hpolicy : config.stepPolicy = .abort) :
    (es ++ fs ++ gs).any (·.passed 3) ∧ (es ++ fs ++ gs).any (·.passed 7) := by
  obtain ⟨address, hscript, hpassed⟩ := h.completed
  have hgs := (hpassed hpolicy).2
  have hrca := any_passed_of_script (l := ⟨3, 0⟩) hscript hgs (by simp [identifyScript])
  have hselect := any_passed_of_script (l := ⟨7, address⟩) hscript hgs (by simp [addressedScript])
  exact ⟨by rw [List.any_append, hrca, Bool.or_true], by rw [List.any_append, hselect, Bool.or_true]⟩

end Script

variable {σ : Type} [Device σ]

theorem bringUp_card_told {config : Config} {card : Card} {xs : List Access}
    (h : (Card.bringUp config : Fallible σ Card).run.Runs (.ok (.ok card)) xs) :
    Card.ToldBy config (exchanges xs) card := by
  obtain ⟨es, fs, gs, hxs, hcourse⟩ := exists_course h
  rw [hxs]
  exact hcourse.toldBy

/-- The willing card, but for its response to all commands. -/
def Scripted.willingWith (response : Response) : Scripted :=
  { willing with otherwise := { willing.otherwise with response } }

/-- Each of the four words has its part in what the driver takes the card for. -/
theorem bringUp_card_told_willing :
    let device := Scripted.willingWith #v[0x00275048, 0x43415244, 0x3110BEEF, 0xC0FF8019]
    let o := (Card.bringUp { scratchAddress := some 0x100 }).run.run device 3000
    ∃ card, o.result = .ok (.ok card) ∧ card.session = ⟨0xC0FF, .transfer .sdr25⟩ ∧
      card.info.cid = some ⟨0x27, 0x5048, #v['C', 'A', 'R', 'D', '1'], 0x10, 0xBEEFC0FF, 1, 9⟩ ∧
      card.info.csd = some (.v1 0x43 2 0xC4 5) ∧ card.info.ocr = 0xC0FF8019 ∧ card.info.highCapacity ∧
      Card.ToldBy { scratchAddress := some 0x100 } (exchanges o.accesses) card := by
  intro device o
  have hreturns : Driver.returns (Card.bringUp { scratchAddress := some 0x100 }) device 3000 fun _ => true := by
    decide +kernel
  obtain ⟨card, -, hresult⟩ := Driver.exists_of_returns hreturns
  have htold : Card.ToldBy { scratchAddress := some 0x100 } (exchanges o.accesses) card :=
    bringUp_card_told ⟨_, _, hresult, rfl⟩
  have hrca : card.session.rca = 0xC0FF := htold.rca.trans (by decide +kernel)
  have hstate : card.session.state = .transfer .sdr25 := htold.state.trans (by decide +kernel)
  have hocr : card.info.ocr = 0xC0FF8019 := Option.some.inj (htold.ocr.trans (by decide +kernel))
  have hcapacity : card.info.highCapacity := by
    rw [htold.highCapacity, hocr]
    decide
  refine ⟨card, hresult, ?_, htold.cid.trans ?_, htold.csd.trans ?_, hocr, hcapacity, htold⟩
  · rw [← hrca, ← hstate]
  · decide +kernel
  · decide +kernel

/-- The card is in the transfer state if it was selected or took its access mode, whatever else failed. -/
theorem bringUp_transfer_iff {config : Config} {card : Card} {xs : List Access}
    (h : (Card.bringUp config : Fallible σ Card).run.Runs (.ok (.ok card)) xs) :
    ((∃ mode, card.session.state = .transfer mode) ↔
        (exchanges xs).any (·.passed 7) ∨ (exchanges xs).any (·.takesMode config)) ∧
      (config.stepPolicy = .abort → (exchanges xs).any (·.passed 3) ∧ (exchanges xs).any (·.passed 7)) := by
  obtain ⟨es, fs, gs, hxs, hcourse⟩ := exists_course h
  rw [hxs]
  constructor
  · rw [hcourse.toldBy.state, CardState.told]
    repeat' split
    all_goals simp_all
  · exact hcourse.passed_of_abort

theorem bringUp_transfer_iff_willing :
    let o := (Card.bringUp {}).run.run Scripted.willing 3000
    ∃ card, o.result = .ok (.ok card) ∧
      ((∃ mode, card.session.state = .transfer mode) ↔
        (exchanges o.accesses).any (·.passed 7) ∨ (exchanges o.accesses).any (·.takesMode {})) := by
  have hreturns : Driver.returns (Card.bringUp {}) Scripted.willing 3000 fun _ => true := by decide +kernel
  obtain ⟨card, -, hresult⟩ := Driver.exists_of_returns hreturns
  exact ⟨card, hresult, (bringUp_transfer_iff ⟨_, _, hresult, rfl⟩).1⟩

/-- Under the other policy a card may reach the transfer state without an address and without its selection. -/
theorem transfer_without_selection :
    let config : Config := { scratchAddress := some 0x100 }
    let o := (Card.bringUp config).run.run (Scripted.willingBut [1, 1, 1, 1, 1, 5, 1, 1, 5]) 3000
    ∃ card, o.result = .ok (.ok card) ∧ card.session.state = .transfer .sdr25 ∧
      ¬ (exchanges o.accesses).any (·.passed 3) ∧ ¬ (exchanges o.accesses).any (·.passed 7) := by
  have hreturns : Driver.returns (Card.bringUp { scratchAddress := some 0x100 })
      (Scripted.willingBut [1, 1, 1, 1, 1, 5, 1, 1, 5]) 3000 fun card => card.session.state = .transfer .sdr25 := by
    decide +kernel
  obtain ⟨card, hstate, hresult⟩ := Driver.exists_of_returns hreturns
  exact ⟨card, hresult, of_decide_eq_true hstate, by decide +kernel, by decide +kernel⟩

end SecureDigital

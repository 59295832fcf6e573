import SecureDigital.Proofs.BringUp.Told
import SecureDigital.Proofs.Path
import SecureDigital.Proofs.Simulated.Answers

/-!
# The capacity of the simulated card

Whatever is scripted, a driver that has brought the card up takes it for what it is: high capacity or not
(`highCapacity_of_bringUp`). A scripted response can only take the place of the first answer, and the
answer that reports power-up is never the first one: APP_CMD comes before it.
-/

namespace SecureDigital

theorem Access.mem_values_iff {register : StatusRegister} {word : UInt32} {xs : List Access} :
    word ∈ values register xs ↔ .read register word ∈ xs := by
  rw [values, List.mem_filterMap]
  constructor
  · rintro ⟨a, ha, hvalue⟩
    split at hvalue
    case h_1 r value =>
      split at hvalue <;> cases hvalue
      subst r
      exact ha
    case h_2 => cases hvalue
  · intro ha
    exact ⟨_, ha, if_pos rfl⟩

namespace Simulated

variable {s s' w : Simulated} {a : Access}

/-- What decides on the response to a power-up command, and the latest response. -/
structure Voice where
  highCapacity : Bool
  application : Bool
  nextResponse : Option Response
  response : Response

def voice (s : Simulated) : Voice := ⟨s.highCapacity, s.application, s.nextResponse, s.response⟩

/-- The voice changes with a launch only. -/
theorem voice_step (h : a.Step s s') (hlaunch : ∀ word, a ≠ .write .command word) : s'.voice = s.voice := by
  cases h with
  | @write _ register value h =>
    cases register
    case command => exact absurd rfl (hlaunch value)
    case readerLength =>
      obtain ⟨bytes, -, heq⟩ := Option.bind_eq_some_iff.1 h
      cases heq
      rfl
    all_goals
      cases h
      rfl
  | read register =>
    show (Device.read s register).2.uncounted.voice = s.uncounted.voice
    rw [uncounted_read]
  | readMemory h =>
    obtain ⟨bytes, -, heq⟩ := Option.map_eq_some_iff.1 h
    cases heq
    rfl
  | writeMemory h =>
    obtain ⟨memory, -, rfl⟩ := Option.map_eq_some_iff.1 h
    rfl

/-- A launch brings the card's answer, unless another one is scripted. -/
theorem voice_launch {word : UInt32} (h : s.launch word = some s') :
    let index := (Command.indexField.read word).toUInt8
    ∃ response w, answer { s with issued := s.issued ++ [⟨index, s.argument, s.application⟩] }
        ⟨index, s.argument, s.application⟩ = some (response, w) ∧
      s'.voice = ⟨s.highCapacity, index == Opcode.appCmd.index, none, s.nextResponse.getD response⟩ := by
  rw [launch_eq] at h
  obtain ⟨⟨response, w⟩, hanswer, rfl⟩ := Option.map_eq_some_iff.1 h
  refine ⟨response, w, hanswer, ?_⟩
  obtain ⟨_, _, _, rfl⟩ := answer_frame hanswer
  rfl

theorem response_of_sendOpCond {argument : UInt32} {response : Response}
    (h : s.answer ⟨41, argument, true⟩ = some (response, w)) :
    response = oneWord busyWord ∨ response = oneWord s.readyWord := by
  rw [answer_sendOpCond] at h
  obtain ⟨rfl, -⟩ := Prod.mk.inj (Option.some.inj h)
  split
  · exact .inr rfl
  · exact .inl rfl

end Simulated

/-- Every SD_SEND_OP_COND that comes after APP_CMD has been answered with the busy word or with `ready`. The
latest exchange is the first of the list. -/
def AnsweredWith (ready : UInt32) : List Exchange → Prop
  | e :: d :: es =>
    (d.index = 55 → e.index = 41 → ∀ word ∈ e.values (.response 3), word = Simulated.busyWord ∨ word = ready) ∧
      AnsweredWith ready (d :: es)
  | _ => True

theorem AnsweredWith.of_append {ready : UInt32} {fs es : List Exchange} (h : AnsweredWith ready (fs ++ es)) :
    AnsweredWith ready es := by
  induction fs with
  | nil => exact h
  | cons f fs ih =>
    refine ih ?_
    cases hrest : fs ++ es with
    | nil => trivial
    | cons d ds =>
      rw [List.cons_append, hrest] at h
      exact h.2

namespace Simulated

/-- What the simulator is going to tell fits what it has told. -/
structure Tells (ready : UInt32) (log : Log) (s : Simulated) : Prop where
  readyWord : s.readyWord = ready
  latest : ∀ e es, log.exchanges = e :: es → s.application = (e.index == Opcode.appCmd.index) ∧ s.nextResponse = none
  pending : ∀ e d es, log.exchanges = e :: d :: es → d.index = 55 → e.index = 41 →
    s.response = oneWord busyWord ∨ s.response = oneWord ready
  told : AnsweredWith ready log.exchanges

variable {s s' : Simulated} {a : Access} {ready : UInt32} {log : Log}

theorem Tells.congr (h : Tells ready log s) (hvoice : s'.voice = s.voice) : Tells ready log s' := by
  obtain ⟨hcapacity, happlication, hnext, hresponse⟩ := Voice.mk.inj hvoice
  constructor
  case readyWord => rw [← h.readyWord, Simulated.readyWord, Simulated.readyWord, hcapacity]
  case latest => rw [happlication, hnext]; exact h.latest
  case pending => rw [hresponse]; exact h.pending
  case told => exact h.told

theorem Tells.launch {argument word : UInt32} (h : Tells ready log s) (hlaunch : s.count.launch word = some s') :
    Tells ready { log with exchanges := ⟨argument, word, []⟩ :: log.exchanges } s' := by
  obtain ⟨response, w, hanswer, hvoice⟩ := voice_launch hlaunch
  obtain ⟨hcapacity, happlication, hnext, hresponse⟩ := Voice.mk.inj hvoice
  constructor
  case readyWord =>
    rw [← h.readyWord, Simulated.readyWord, Simulated.readyWord, hcapacity]
    rfl
  case latest =>
    rintro _ _ ⟨rfl, rfl⟩
    exact ⟨happlication, hnext⟩
  case pending =>
    intro e d ds heq hd he
    obtain ⟨rfl, hds⟩ := List.cons.inj heq
    -- A launch came before this one, so a response that was scripted is used up.
    obtain ⟨hafter, hscripted⟩ := h.latest d ds hds
    have hcommand : s.count.application = true := by rw [hd] at hafter; exact hafter
    have hplain : s.count.nextResponse = none := hscripted
    rw [show (Command.indexField.read word).toUInt8 = 41 from he, hcommand] at hanswer
    have hword := response_of_sendOpCond hanswer
    rw [hresponse, hplain, Option.getD_none, ← h.readyWord]
    exact hword
  case told =>
    cases hlog : log.exchanges with
    | nil => trivial
    | cons d ds => exact ⟨fun _ _ => nofun, hlog ▸ h.told⟩

/-- An access that launches nothing adds at most an answer to the latest exchange. -/
theorem Tells.hear (h : Tells ready log s) (hlaunch : ∀ word, a ≠ .write .command word)
    (hvalue : ∀ word, a = .read (.response 3) word → word = s.response.word 3) : Tells ready (log.observe a) s := by
  unfold Log.observe
  split
  case h_1 => exact ⟨h.readyWord, h.latest, h.pending, h.told⟩
  case h_2 word => exact absurd rfl (hlaunch word)
  case h_3 =>
    split
    case isFalse => exact h
    case isTrue =>
      split
      case h_1 => exact h
      case h_2 e es hlog =>
        obtain ⟨hready, hlatest, hpending, htold⟩ := h
        rw [hlog] at htold
        constructor
        case readyWord => exact hready
        case latest =>
          rintro _ _ ⟨rfl, rfl⟩
          exact hlatest e es hlog
        case pending =>
          rintro _ d ds ⟨rfl, rfl⟩ hd he
          exact hpending e d ds hlog hd he
        case told =>
          cases es with
          | nil => trivial
          | cons d ds =>
            refine ⟨fun hd he word hword => ?_, htold.2⟩
            rw [Exchange.values, Exchange.andThen, Access.values_append] at hword
            rcases List.mem_append.1 hword with hword | hword
            · exact htold.1 hd he word hword
            · have hread := hvalue word (List.mem_singleton.1 (Access.mem_values_iff.1 hword)).symm
              rcases hpending e d ds hlog hd he with hresponse | hresponse <;> rw [hresponse] at hread
              · exact .inl hread
              · exact .inr hread

theorem Tells.observe (h : Tells ready log s) (ha : a.Step s s') : Tells ready (log.observe a) s' := by
  by_cases hlaunch : ∃ word, a = .write .command word
  · obtain ⟨word, rfl⟩ := hlaunch
    cases ha with
    | write hwrite => exact h.launch hwrite
  · have hquiet : ∀ word, a ≠ .write .command word := fun word hword => hlaunch ⟨word, hword⟩
    refine (h.congr (voice_step ha hquiet)).hear hquiet fun word hword => ?_
    subst hword
    cases ha
    rfl

variable {config : Config} {card : Card} {b : Nat}

theorem Tells.start (s : Simulated) : Tells s.readyWord .empty s := ⟨rfl, nofun, nofun, trivial⟩

theorem answeredWith_exchanges {s' : Simulated} {xs : List Access} (h : Path s xs s') :
    s'.readyWord = s.readyWord ∧ AnsweredWith s.readyWord (exchanges xs).reverse := by
  have hstep (log : Log) (t : Simulated) (a : Access) (t' : Simulated) (ha : a.Step t t')
      (hlog : Tells s.readyWord log t) : Tells s.readyWord (log.observe a) t' := hlog.observe ha
  have hend := h.foldl hstep Log.empty (Tells.start s)
  rw [exchanges, List.reverse_reverse]
  exact ⟨hend.readyWord, hend.told⟩

/-- The word that reports power-up comes from the card. -/
theorem eq_readyWord {ready : UInt32} {k : Nat} {es fs gs : List Exchange} {e : Exchange}
    (hrounds : (fs ++ [e]).map Exchange.launch = Launch.powerUpRounds (k + 1)) (hbit : testBit (e.responseWord 3) 31)
    (h : AnsweredWith ready (es ++ (fs ++ [e]) ++ gs).reverse) : e.responseWord 3 = ready := by
  -- The loop ends with APP_CMD and the command that reports power-up.
  rw [List.map_append, Launch.powerUpRounds_succ, List.append_cons] at hrounds
  obtain ⟨hfs, he⟩ := List.append_inj' hrounds rfl
  obtain ⟨fs, ds, rfl, -, hds⟩ := List.map_eq_append_iff.1 hfs
  obtain ⟨d, tail, rfl, hd, htail⟩ := List.map_eq_cons_iff.1 hds
  obtain rfl := List.map_eq_nil_iff.1 htail
  have hreverse : (es ++ (fs ++ [d] ++ [e]) ++ gs).reverse = gs.reverse ++ e :: d :: (fs.reverse ++ es.reverse) := by
    simp
  rw [hreverse] at h
  have hwords := h.of_append.1 (congrArg Launch.index hd) (congrArg Launch.index (List.singleton_inj.1 he))
  have hshort : e.responseWord 3 = (e.values (.response 3)).headD 0 := rfl
  rw [hshort] at hbit ⊢
  cases hread : e.values (.response 3) with
  | nil =>
    rw [hread] at hbit
    cases hbit
  | cons word words =>
    rw [hread] at hbit hwords
    rcases hwords word List.mem_cons_self with rfl | rfl
    · rw [List.headD_cons, testBit_busyWord] at hbit
      cases hbit
    · rfl

theorem highCapacity_of_bringUp (h : ((Card.bringUp config).run.run s b).result = .ok (.ok card)) :
    card.config = config ∧ card.info.highCapacity = ((Card.bringUp config).run.run s b).device.highCapacity := by
  have hpath := (Driver.Tracked.compositional.bringUp config).traced s b (by rw [h]; exact nofun)
  obtain ⟨hready, hanswered⟩ := answeredWith_exchanges hpath
  obtain ⟨es, fs, gs, hxs, hcourse⟩ := exists_course ⟨s, b, h, rfl⟩
  rw [hxs] at hanswered
  cases hcourse with
  | inReset hreset =>
    cases hreset with
    | completed _ _ hfalse => exact hfalse.elim
  | @poweredUp k _ _ _ fs _ e _ _ hrounds hbit hrest =>
    cases hrest with
    | completed _ _ hcard =>
      obtain ⟨rfl, -⟩ := hcard
      refine ⟨Card.foldl_learn_config _ _, ?_⟩
      rw [← (testBit_readyWord _).2, hready, (Card.foldl_learn_poweredUp _ _).2]
      exact congrArg (testBit · 30) (eq_readyWord hrounds hbit hanswered)

end Simulated

end SecureDigital

import SecureDigital.Proofs.BringUp.Stepwise
import SecureDigital.Proofs.Execute
import SecureDigital.Proofs.Guarded

/-!
# The buffer that the bring-up lends to the controller

The bring-up moves data only through the configured buffer, and only from the card: the DMA writer is pointed at the
buffer by each command that makes the card send data, the DMA reader is left alone, and memory is read where such a command
has just ended well (`Config.Permits`). Nor does it launch a command whose data would go elsewhere (`Access.IsAimed`).
-/

namespace SecureDigital

namespace Access

/-- The index of the command that the access launches. -/
def launched? : Access → Option UInt8
  | .write .command word => some (Command.indexField.read word).toUInt8
  | _ => none

/-- Whether the access is no report of a data phase. -/
def sparesData : Access → Bool
  | .read .dataEvent _ => false
  | _ => true

end Access

/-- The index of the command that was launched last. -/
def lastLaunched (xs : List Access) : Option UInt8 := (xs.filterMap Access.launched?).getLast?

/-- The last accesses are those of a run of the command `c` that has ended well. -/
def JustPassed (config : Config) (c : Command) (front : List Access) : Prop :=
  ∃ ys reply, ys <:+ front ∧ Executed config c (.ok reply) ys ∧ reply.status = .ok

/-- What a bring-up may access after the accesses `front`. -/
def Config.Permits (config : Config) (front : List Access) : Access → Prop
  | .writeMemory .. | .write .readerAddress _ | .write .readerLength _ => False
  | .write .blockSize _ | .write .blockCount _ | .read .dataEvent _ => config.scratchAddress ≠ none
  | .write .writerAddress address => config.scratchAddress = some address
  | .readMemory address length _ => config.scratchAddress = some address ∧
    (length = 64 ∧ (∃ argument, JustPassed config
        ((Command.of .switchFunc argument .short).withRead address Card.switchStatusSize) front) ∨
      length = 8 ∧ JustPassed config ((Command.of .sendScr 0 .short).withRead address Card.scrSize) front)
  | _ => True

/-- The commands after which the card or the controller moves data, and those that share an index with one. -/
def Opcode.moving : List Opcode := [readSingleBlock, writeSingleBlock, switchFunc, sendScr]

/-- What the access launches moves no data, or the DMA writer has been pointed somewhere. -/
def Access.IsAimed (front : List Access) (a : Access) : Prop :=
  ∀ index, a.launched? = some index → index ∈ Opcode.moving.map Opcode.index →
    index ∈ [Opcode.switchFunc.index, Opcode.sendScr.index] ∧ (∃ address, .write .writerAddress address ∈ front) ∨
      index = Opcode.setBusWidth.index ∧ lastLaunched front = some Opcode.appCmd.index

structure Config.Admits (config : Config) (front : List Access) (a : Access) : Prop where
  permits : config.Permits front a
  isAimed : a.IsAimed front

variable {config : Config} {front xs : List Access} {c : Command}

theorem lastLaunched_append (xs ys : List Access) :
    lastLaunched (xs ++ ys) = (lastLaunched ys).or (lastLaunched xs) := by
  rw [lastLaunched, List.filterMap_append, List.getLast?_append]
  rfl

theorem lastLaunched_eq_none (h : ∀ a ∈ xs, a.launched? = none) : lastLaunched xs = none := by
  rw [lastLaunched, List.filterMap_eq_nil_iff.2 h]
  rfl

theorem Command.launched?_word (hindex : c.index < 64) : (Access.write .command c.word).launched? = some c.index :=
  congrArg some (Command.exchange_index_of_lt hindex [])

theorem Command.index_eq_of_launched? {index : UInt8} (h : (Access.write .command c.word).launched? = some index)
    (hindex : c.index < 64) : c.index = index := by
  rw [Command.launched?_word hindex] at h
  exact Option.some.inj h

/-! ### What is admitted after anything -/

/-- The command moves no data, or moves them to the buffer. -/
def Config.Lends (config : Config) (c : Command) : Prop :=
  c.transfer = .none ∨ ∃ scratch, config.scratchAddress = some scratch ∧ c.transfer = .read scratch

namespace Config

theorem admits_of_isClock {a : Access} (h : a.isClock) (front : List Access) : config.Admits front a := by
  unfold Access.isClock at h
  split at h <;> first | exact ⟨trivial, nofun⟩ | cases h

theorem admits_of_isTimer {a : Access} (h : a.isTimer) (front : List Access) : config.Admits front a := by
  unfold Access.isTimer at h
  split at h <;> first | exact ⟨trivial, nofun⟩ | cases h

theorem admits_armed (h : config.Lends c) {a : Access} (ha : a ∈ c.armed.map Access.ofWrite) (front : List Access) :
    config.Admits front a := by
  obtain ⟨w, hw, rfl⟩ := List.mem_map.1 ha
  unfold Command.armed at hw
  rcases h with hnone | ⟨scratch, hscratch, hread⟩
  · rw [hnone] at hw
    cases hw
  · rw [hread] at hw
    have hlent : config.scratchAddress ≠ none := by simp [hscratch]
    simp only [List.mem_cons, List.not_mem_nil, or_false] at hw
    rcases hw with rfl | rfl | rfl
    · exact ⟨hlent, nofun⟩
    · exact ⟨hlent, nofun⟩
    · exact ⟨hscratch, nofun⟩

theorem admits_report (h : config.Lends c) {a : Access} (hreport : a.isReport) (hspares : c.transfer = .none → a.sparesData)
    (front : List Access) : config.Admits front a := by
  unfold Access.isReport at hreport
  split at hreport
  case h_1 => exact ⟨trivial, nofun⟩
  case h_2 =>
    rcases h with hnone | ⟨scratch, hscratch, -⟩
    · cases hspares hnone
    · exact ⟨by simp [Permits, hscratch], nofun⟩
  case h_3 => exact ⟨trivial, nofun⟩
  case h_4 => cases hreport

end Config

/-! ### Commands -/

variable {σ α : Type} [Device σ]

namespace Driver

theorem Confined.await_command (config : Config) :
    (Phase.await config .command : Driver σ Status).Confined Access.sparesData := by
  refine .bind ((Confined.sequential _).poll (.bind (.read fun _ => rfl) fun _ => .pure _)) fun result => ?_
  cases result with
  | none => exact .bind (.note _) fun _ => .pure _
  | some status => exact .pure status

theorem Confined.collect (kind : ResponseKind) :
    (Command.collect kind : Driver σ Response).Confined Access.sparesData := by
  cases kind with
  | none => exact .pure _
  | short | long =>
    exact .bind (.read fun _ => rfl) fun _ => .bind (.read fun _ => rfl) fun _ => .bind (.read fun _ => rfl) fun _ =>
      .bind (.read fun _ => rfl) fun _ => .pure _

/-- A command without data does not ask how its data phase is. -/
theorem Confined.execute_of_none (h : c.transfer = .none) :
    (c.execute config : Driver σ Reply).Confined Access.sparesData := by
  have harm : (c.arm : Driver σ Unit).Confined Access.sparesData := by
    unfold Command.arm
    rw [h]
    exact .pure ()
  have hfinish : (c.finish config : Driver σ Status).Confined Access.sparesData := by
    rw [Command.finish, if_neg (by simp [Command.hasData, h])]
    exact .pure _
  refine .bind (.note _) fun _ => .bind (.write rfl) fun _ => .bind harm fun _ => .bind (.write rfl) fun _ =>
    .bind (.await_command config) fun status => .bind (.collect _) fun response => ?_
  split
  · exact .bind hfinish fun _ => .pure _
  · exact .bind (.note _) fun _ => .pure _

theorem Guarded.execute (hlends : config.Lends c)
    (haimed : (Access.write .command c.word).IsAimed (front ++ .write .argument c.argument :: c.armed.map Access.ofWrite)) :
    (c.execute config : Driver σ Reply).Guarded config.Admits front := by
  have hprepared : ∀ a ∈ .write .argument c.argument :: c.armed.map Access.ofWrite, ∀ front, config.Admits front a :=
    List.forall_mem_cons.2 ⟨fun _ => ⟨trivial, nofun⟩, fun _ => Config.admits_armed hlends⟩
  intro r xs h
  have hspares : c.transfer = .none → ∀ a ∈ xs, a.sparesData := fun hnone => Confined.execute_of_none hnone h
  cases h.execute with
  | unlaunched hxs => exact (GuardedFrom.of_forall hprepared).truncate hxs
  | returned hreports | broken hreports =>
    refine GuardedFrom.append_iff.2 ⟨.of_forall hprepared, ⟨trivial, haimed⟩, .of_forall fun a ha => ?_⟩
    refine Config.admits_report hlends (hreports a ha) fun hnone => hspares hnone a ?_
    exact List.mem_append_right _ (List.mem_cons_of_mem _ ha)

/-- The policy for failures makes no access, and what a step returns its command has returned. -/
theorem Runs.of_step {r : Except Halt (Except Error Reply)}
    (h : (Card.step config c : Fallible σ Reply).run.Runs r xs) :
    ∃ r', (c.execute config : Driver σ Reply).Runs r' xs ∧ ∀ reply, r = .ok (.ok reply) → r' = .ok reply := by
  rcases h.bindLift with ⟨e, rfl, hstop⟩ | ⟨reply, ys, zs, rfl, hys, hzs⟩
  · exact ⟨_, hstop, nofun⟩
  -- Whatever the policy says, the command is all that is run.
  have hend : zs = [] ∧ ∀ reply', r = .ok (.ok reply') → reply = reply' := by
    split at hzs
    case isTrue =>
      obtain ⟨rfl, rfl⟩ := hzs.of_pure
      exact ⟨rfl, fun _ h => Except.ok.inj (Except.ok.inj h)⟩
    case isFalse =>
      split at hzs
      · obtain ⟨rfl, rfl⟩ := hzs.of_lift_notes_bind.of_pure
        exact ⟨rfl, fun _ h => Except.ok.inj (Except.ok.inj h)⟩
      · obtain ⟨rfl, rfl⟩ := hzs.of_lift_notes_bind.of_pure
        exact ⟨rfl, nofun⟩
  obtain ⟨rfl, hreply⟩ := hend
  rw [List.append_nil]
  exact ⟨_, hys, fun reply' hr => congrArg Except.ok (hreply reply' hr)⟩

theorem Guarded.step (h : (c.execute config : Driver σ Reply).Guarded config.Admits front) :
    (Card.step config c : Fallible σ Reply).run.Guarded config.Admits front := by
  intro r xs hrun
  obtain ⟨r', hexecute, -⟩ := hrun.of_step
  exact h hexecute

/-- Memory is read right after a command that has brought the bytes. -/
theorem Guarded.fetch {x : Fallible σ Reply} {scratch : UInt32} {length : Nat} {hit : Vector UInt8 length → Fallible σ α}
    {miss : Fallible σ α} (hx : x.run.Guarded config.Admits front)
    (hread : ∀ ys reply, x.run.Runs (.ok (.ok reply)) ys → reply.status = .ok → ∀ bytes,
      config.Admits (front ++ ys) (.readMemory scratch length bytes))
    (hhit : ∀ block front, (hit block).run.Guarded config.Admits front)
    (hmiss : ∀ front, miss.run.Guarded config.Admits front) :
    (Card.fetch x scratch length hit miss).run.Guarded config.Admits front := by
  refine hx.bindFallible fun reply ys hrun => ?_
  split
  case isTrue hok =>
    exact (Guarded.readMemory (hread ys reply hrun hok)).lift.bindFallible fun block _ _ => hhit block _
  case isFalse => exact hmiss _

theorem Guarded.execute_still {op : Opcode} (hop : op.index ∉ Opcode.moving.map Opcode.index) (argument : UInt32)
    (kind : ResponseKind) : ((Command.of op argument kind).execute config : Driver σ Reply).Guarded config.Admits front := by
  refine .execute (.inl rfl) fun index hindex hmoving => ?_
  obtain rfl : op.index = index := Command.index_eq_of_launched? hindex (Opcode.index_lt op)
  exact absurd hmoving hop

theorem Guarded.plain {op : Opcode} (hop : op.isPlain) (argument : UInt32) (kind : ResponseKind) :
    (Card.step config (.of op argument kind) : Fallible σ Reply).run.Guarded config.Admits front := by
  have hstill : op.index ∉ Opcode.moving.map Opcode.index := by cases op <;> first | decide | cases hop
  exact .step (.execute_still hstill argument kind)

theorem lastLaunched_of_executed {reply : Reply} (hindex : c.index < 64) (h : Executed config c (.ok reply) xs) :
    lastLaunched xs = some c.index := by
  cases h with
  | @returned answers hreports =>
    have hanswers : ∀ a ∈ answers, a.launched? = none := by
      intro a ha
      have hreport := hreports a ha
      cases a <;> first | rfl | cases hreport
    rw [lastLaunched_append, lastLaunched, List.filterMap_cons_some (Command.launched?_word hindex),
      List.filterMap_eq_nil_iff.2 hanswers]
    rfl

theorem Guarded.applicationStep {card : Card} (hcard : card.config = config)
    (hx : ∀ ys reply, Executed config (.of .appCmd card.session.addressArgument .short) (.ok reply) ys →
      (c.execute config : Driver σ Reply).Guarded config.Admits (front ++ ys)) :
    (Card.applicationStep card c : Fallible σ Reply).run.Guarded config.Admits front := by
  subst hcard
  refine (Guarded.plain rfl _ _).bindFallible fun reply ys hrun => .step ?_
  obtain ⟨r', happCmd, hreply⟩ := hrun.of_step
  rw [hreply reply rfl] at happCmd
  exact hx ys reply happCmd.execute

/-- A command that fills the buffer has pointed the DMA writer at it. -/
theorem Guarded.execute_withRead {op : Opcode} {argument scratch size : UInt32}
    (hop : op.index ∈ [Opcode.switchFunc.index, Opcode.sendScr.index]) (hscratch : config.scratchAddress = some scratch) :
    (((Command.of op argument .short).withRead scratch size).execute config : Driver σ Reply).Guarded
      config.Admits front := by
  refine .execute (.inr ⟨scratch, hscratch, rfl⟩) fun index hindex _ => .inl ⟨?_, scratch, ?_⟩
  · obtain rfl : op.index = index := Command.index_eq_of_launched? hindex (Opcode.index_lt op)
    exact hop
  · exact List.mem_append_right _ (by simp [Command.armed, Command.withRead, Access.ofWrite])

/-- SET_BUS_WIDTH has the index of a command that moves data, but comes right after APP_CMD. -/
theorem Guarded.setBusWidth {card : Card} (hcard : card.config = config) :
    (Card.applicationStep card (.of .setBusWidth Card.fourBitBus .short) : Fallible σ Reply).run.Guarded
      config.Admits front := by
  refine .applicationStep hcard fun ys reply happCmd => .execute (.inl rfl) fun index hindex _ => .inr ⟨?_, ?_⟩
  · exact (Command.index_eq_of_launched? hindex (Opcode.index_lt .setBusWidth)).symm
  · have hargument : ∀ a ∈ [Access.write .argument Card.fourBitBus], a.launched? = none := by simp [Access.launched?]
    show lastLaunched (front ++ ys ++ [Access.write .argument Card.fourBitBus]) = _
    rw [lastLaunched_append, lastLaunched_eq_none hargument, Option.none_or, lastLaunched_append,
      lastLaunched_of_executed (Opcode.index_lt .appCmd) happCmd]
    rfl

theorem Guarded.stepwise (config : Config) :
    Card.Stepwise (σ := σ) config fun x => ∀ front, x.run.Guarded config.Admits front where
  pure a _ := .pure (Except.ok a)
  bind hx hf front := (hx front).bindFallible fun a xs hrun => hf a xs hrun _
  notes ns := (Guarded.sequential _).lift fun _ => .notes ns
  plain op argument kind hop _ := .plain hop argument kind
  setBusWidth card hcard _ := .setBusWidth hcard
  fetchSwitch argument hit miss hscratch hhit hmiss front := by
    refine .fetch (.step (.execute_withRead (by simp) hscratch)) (fun ys reply hrun hok bytes => ?_) hhit hmiss
    obtain ⟨r', hexecute, hreply⟩ := hrun.of_step
    rw [hreply reply rfl] at hexecute
    exact ⟨⟨hscratch, .inl ⟨rfl, argument, ys, reply, List.suffix_append front ys, hexecute.execute, hok⟩⟩, nofun⟩
  fetchScr card hit miss hcard hscratch hhit hmiss front := by
    refine .fetch (.applicationStep hcard fun _ _ _ => .execute_withRead (by simp) hscratch)
      (fun ys reply hrun hok bytes => ?_) hhit hmiss
    subst hcard
    obtain ⟨_, us, vs, rfl, -, hstep⟩ := hrun.bindFallible_ok
    obtain ⟨r', hexecute, hreply⟩ := hstep.of_step
    rw [hreply reply rfl] at hexecute
    have hsuffix : vs <:+ front ++ (us ++ vs) := (List.suffix_append us vs).trans (List.suffix_append front _)
    exact ⟨⟨hscratch, .inr ⟨rfl, vs, reply, hsuffix, hexecute.execute, hok⟩⟩, nofun⟩

theorem Guarded.bringUp (config : Config) (front : List Access) :
    (Card.bringUp config : Fallible σ Card).run.Guarded config.Admits front := by
  have hclock (khz : UInt32) (front : List Access) : (Clock.program khz : Driver σ Ratio).Guarded config.Admits front :=
    .of_confined (.program khz) fun _ => Config.admits_of_isClock
  have hdelay (sysClkHz ms : UInt32) (front : List Access) :
      (Timer.delay sysClkHz ms : Driver σ Unit).Guarded config.Admits front :=
    .of_confined (.delay sysClkHz ms) fun _ => Config.admits_of_isTimer
  have hprepare (front : List Access) : (Card.prepare config : Driver σ Unit).Guarded config.Admits front :=
    .bind (.write ⟨trivial, nofun⟩) fun _ _ _ => .bind (.write ⟨trivial, nofun⟩) fun _ _ _ =>
      .bind (hclock _ _) fun _ _ _ => hdelay _ _ _
  have happCmd (front : List Access) :
      ((Command.of .appCmd 0 .short).execute config : Driver σ Reply).Guarded config.Admits front :=
    .execute_still (by decide) 0 .short
  have hsendOpCond (front : List Access) :
      ((Command.of .sendOpCond Card.operatingCondition .short).execute config : Driver σ Reply).Guarded
        config.Admits front :=
    .execute_still (by decide) Card.operatingCondition .short
  refine (Guarded.stepwise config).bringUp (fun front => (hprepare front).lift) (fun card hcard => ?_)
    (fun khz front => (hclock khz front).lift) front
  exact (Guarded.sequential config.Admits).powerUp happCmd hsendOpCond hdelay hcard

end Driver

end SecureDigital

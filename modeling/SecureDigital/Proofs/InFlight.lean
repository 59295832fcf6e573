import SecureDigital.Card.SelfTest
import SecureDigital.Device.Scripted
import SecureDigital.Proofs.BringUp.Stepwise
import SecureDigital.Proofs.Transcript

/-!
# One command in flight

The driver sets up a command only when the one before it is over: between the launch of a command and the next write that
sets one up, it has waited for the phases of the first (`Settled`), whatever was going on in between. This is said of the
accesses of any sequence of operations (`Operation.trace`), on any device.

`Flight` watches the accesses. A program is `Orderly` if it sets up commands only while the last one has landed, and if
it returns only when that is so again. That passes from the parts of a program to the whole, so the one place to look at
is the launch of a command (`Orderly.execute`).
-/

namespace SecureDigital

variable {σ α β : Type}

/-- Whether writing the register sets up a command or launches it. -/
def ControlRegister.setsUp : ControlRegister → Bool
  | argument | command | blockSize | blockCount | readerAddress | readerLength | writerAddress => true
  | _ => false

namespace Access

def setsUp : Access → Bool
  | .write register _ => register.setsUp
  | _ => false

/-- Whether the access neither launches a command nor reads an event. -/
def isAside : Access → Bool
  | .write .command _ | .read .cmdEvent _ | .read .dataEvent _ => false
  | _ => true

theorem isAside_of_isClock {a : Access} (h : a.isClock) : a.isAside := by
  unfold isClock at h
  split at h <;> first | rfl | cases h

theorem isAside_of_isTimer {a : Access} (h : a.isTimer) : a.isAside := by
  unfold isTimer at h
  split at h <;> first | rfl | cases h

theorem isAside_of_isMemoryRead {a : Access} (h : a.isMemoryRead) : a.isAside := by
  cases a <;> first | rfl | cases h

theorem not_setsUp_of_isReport {a : Access} (h : a.isReport) : a.setsUp = false := by
  unfold isReport at h
  split at h <;> first | rfl | cases h

theorem values_of_isAside {a : Access} (h : a.isAside) :
    values .cmdEvent [a] = [] ∧ values .dataEvent [a] = [] := by
  unfold isAside at h
  split at h
  case h_4 hcommand hcmdEvent hdataEvent =>
    cases a with
    | read register value => cases register <;> simp_all
    | _ => exact ⟨rfl, rfl⟩
  all_goals cases h

end Access

/-- The accesses `since` the launch of a command by `word` have waited for its end: for the event of the command phase,
and, if that reports no error and the command carries data, for the event of the data phase. -/
def Settled (config : Config) (word : UInt32) (since : List Access) : Prop :=
  ∃ report, Awaited config.cmdPoll (Access.values .cmdEvent since) report ∧
    ∀ event, report = some event → testBit event 2 = false → testBit event 3 = false →
      Command.transferField.read word ≠ 0 → ∃ report', Awaited config.dataPoll (Access.values .dataEvent since) report'

theorem Transcript.Valid.settled {t : Transcript} {config : Config} {c : Command} (h : t.Valid config c) :
    Settled config c.word (c.answers t.cmdEvents t.response t.dataEvents) := by
  have hcmdEvents : Access.values .cmdEvent (c.answers t.cmdEvents t.response t.dataEvents) = t.cmdEvents :=
    c.values_cmdEvent
  have hdataEvents : Access.values .dataEvent (c.answers t.cmdEvents t.response t.dataEvents) = t.dataEvents :=
    c.values_dataEvent
  refine ⟨t.cmdReport, hcmdEvents.symm ▸ h.command, fun event hevent htimeout hcrc htransfer => ⟨t.dataReport, ?_⟩⟩
  have hok : t.commandStatus = .ok := by
    simp [Transcript.commandStatus, hevent, Phase.verdict, htimeout, hcrc]
  have hdata : c.transfer ≠ .none := by
    intro hnone
    rw [c.read_word.2.1, hnone] at htransfer
    exact htransfer rfl
  exact hdataEvents.symm ▸ h.data hok hdata

/-! ### Watching the accesses -/

/-- The last command of a run, and the accesses since its launch. -/
structure Flight where
  config : Config
  word : UInt32
  since : List Access

namespace Flight

def observe (f : Option Flight) (p : Config × Access) : Option Flight :=
  match p.2 with
  | .write .command word => some ⟨p.1, word, []⟩
  | a => f.map fun g => { g with since := g.since ++ [a] }

/-- No command is in flight. -/
def Landed (f : Option Flight) : Prop := ∀ g, f = some g → Settled g.config g.word g.since

theorem landed_none : Landed none := by
  intro g hg
  cases hg

/-- Commands are set up only while none is in flight. -/
def Orderly : Option Flight → List (Config × Access) → Prop
  | _, [] => True
  | f, p :: ps => (p.2.setsUp → Landed f) ∧ Orderly (observe f p) ps

variable {f : Option Flight} {config : Config} {ps qs : List (Config × Access)} {xs : List Access}

theorem Orderly.append (h : Orderly f ps) (h' : Orderly (ps.foldl observe f) qs) : Orderly f (ps ++ qs) := by
  induction ps generalizing f with
  | nil => exact h'
  | cons p ps ih => exact ⟨h.1, ih h.2 h'⟩

theorem Orderly.of_append (h : Orderly f (ps ++ qs)) : Orderly (ps.foldl observe f) qs := by
  induction ps generalizing f with
  | nil => exact h
  | cons p ps ih => exact ih h.2

theorem observe_of_not_launch {p : Config × Access} (h : ∀ word, p.2 ≠ .write .command word) :
    observe f p = f.map fun g => { g with since := g.since ++ [p.2] } := by
  unfold observe
  split
  case h_1 word hword => exact absurd hword (h word)
  case h_2 => rfl

theorem foldl_of_not_setsUp (h : ∀ p ∈ ps, p.2.setsUp = false) (g : Flight) :
    ps.foldl observe (some g) = some { g with since := g.since ++ ps.map Prod.snd } := by
  induction ps generalizing g with
  | nil => simp
  | cons p ps ih =>
    obtain ⟨hp, hps⟩ := List.forall_mem_cons.1 h
    have hlaunch : ∀ word, p.2 ≠ .write .command word := by
      rintro word heq
      rw [heq] at hp
      cases hp
    rw [List.foldl_cons, observe_of_not_launch hlaunch, Option.map_some, ih hps]
    simp

theorem Orderly.of_not_setsUp (h : ∀ p ∈ ps, p.2.setsUp = false) : Orderly f ps := by
  induction ps generalizing f with
  | nil => trivial
  | cons p ps ih =>
    obtain ⟨hp, hps⟩ := List.forall_mem_cons.1 h
    exact ⟨fun hsetsUp => absurd hsetsUp (by simp [hp]), ih hps⟩

/-- What takes no part in the waiting does not change that a command has landed. -/
theorem Landed.observe {p : Config × Access} (h : Landed f) (hp : p.2.isAside) : Landed (observe f p) := by
  have hlaunch : ∀ word, p.2 ≠ .write .command word := by
    rintro word heq
    rw [heq] at hp
    cases hp
  intro g hg
  rw [observe_of_not_launch hlaunch] at hg
  obtain ⟨g', hg', rfl⟩ := Option.map_eq_some_iff.1 hg
  obtain ⟨hcmdEvent, hdataEvent⟩ := Access.values_of_isAside hp
  simpa [Settled, hcmdEvent, hdataEvent] using h g' hg'

theorem Landed.orderly (h : Landed f) (hxs : ∀ a ∈ xs, a.isAside) :
    Orderly f (xs.map (config, ·)) ∧ Landed ((xs.map (config, ·)).foldl Flight.observe f) := by
  induction xs generalizing f with
  | nil => exact ⟨trivial, h⟩
  | cons a xs ih =>
    obtain ⟨ha, hxs⟩ := List.forall_mem_cons.1 hxs
    obtain ⟨horderly, hlanded⟩ := ih (h.observe (p := (config, a)) ha) hxs
    exact ⟨⟨fun _ => h, horderly⟩, hlanded⟩

end Flight

/-! ### Orderly programs -/

open Flight

def Driver.Orderly (config : Config) (m : Driver σ α) : Prop :=
  ∀ ⦃r xs⦄, m.Runs r xs → ∀ f, Landed f → Flight.Orderly f (xs.map (config, ·)) ∧
    ∀ a, r = .ok a → Landed ((xs.map (config, ·)).foldl Flight.observe f)

namespace Driver.Orderly

variable {config : Config}

theorem of_confined {m : Driver σ α} (h : m.Confined Access.isAside) : m.Orderly config := by
  intro r xs hrun f hf
  obtain ⟨horderly, hlanded⟩ := hf.orderly (h hrun)
  exact ⟨horderly, fun _ _ => hlanded⟩

theorem bind {m : Driver σ α} {g : α → Driver σ β} (hm : m.Orderly config) (hg : ∀ a, (g a).Orderly config) :
    (m >>= g).Orderly config := by
  intro r xs hrun f hf
  rcases hrun.bind with ⟨e, rfl, hstop⟩ | ⟨a, ys, zs, rfl, hys, hzs⟩
  · exact ⟨(hm hstop f hf).1, fun _ hok => by cases hok⟩
  · obtain ⟨horderly, hlanded⟩ := hm hys f hf
    obtain ⟨horderly', hlanded'⟩ := hg a hzs _ (hlanded a rfl)
    rw [List.map_append, List.foldl_append]
    exact ⟨horderly.append horderly', hlanded'⟩

theorem sequential (config : Config) : Sequential (σ := σ) fun m => m.Orderly config where
  pure a := of_confined (.pure a)
  notes ns := of_confined (.notes ns)
  halt h := of_confined (.halt h)
  bind := bind
  of_runs h := by
    rintro r xs ⟨s, b, hr, hxs⟩
    obtain ⟨m', hm', hrun⟩ := h s b
    exact hm' ⟨s, b, hrun ▸ hr, hrun ▸ hxs⟩

variable [Device σ]

/-- A command is launched while none is in flight, and the driver comes back when it has settled. -/
theorem launch (c : Command) :
    (Driver.write .command c.word >>= fun _ => c.settle config : Driver σ Reply).Orderly config := by
  intro r xs hrun f hf
  rcases hrun.of_write_bind with ⟨e, rfl, -, hxs⟩ | ⟨ys, rfl, hsettle⟩
  · refine ⟨?_, fun _ hok => by cases hok⟩
    rcases List.prefix_cons_iff.1 hxs with rfl | ⟨zs, rfl, hzs⟩
    · trivial
    · obtain rfl := List.prefix_nil.1 hzs
      exact ⟨fun _ => hf, trivial⟩
  have hreports : ∀ p ∈ ys.map (config, ·), p.2.setsUp = false := by
    intro p hp
    obtain ⟨a, ha, rfl⟩ := List.mem_map.1 hp
    exact Access.not_setsUp_of_isReport (hsettle.settle.1 a ha)
  refine ⟨⟨fun _ => hf, .of_not_setsUp hreports⟩, ?_⟩
  rintro reply rfl
  obtain ⟨t, ht, -, hys⟩ := hsettle.settle_transcript
  have hlast : (ys.map (config, ·)).foldl Flight.observe (some ⟨config, c.word, []⟩) = some ⟨config, c.word, ys⟩ := by
    rw [foldl_of_not_setsUp hreports]
    simp [Function.comp_def]
  show Landed ((ys.map (config, ·)).foldl Flight.observe (some ⟨config, c.word, []⟩))
  rw [hlast, hys]
  rintro _ ⟨rfl⟩
  exact ht.settled

theorem arm (c : Command) : (c.arm : Driver σ Unit).Confined Access.isAside := by
  unfold Command.arm
  cases c.transfer with
  | none => exact .pure ()
  | read dest => exact .bind (.write rfl) fun _ => .bind (.write rfl) fun _ => .write rfl
  | write src => exact .bind (.write rfl) fun _ => .bind (.write rfl) fun _ => .bind (.write rfl) fun _ => .write rfl

theorem execute (c : Command) : (c.execute config : Driver σ Reply).Orderly config :=
  bind (of_confined (.note _)) fun _ => bind (of_confined (.write rfl)) fun _ =>
    bind (of_confined (arm c)) fun _ => launch c

/-! ### The operations -/

theorem program (khz : UInt32) : (Clock.program khz : Driver σ Ratio).Orderly config :=
  of_confined ((Confined.program khz).mono fun _ => Access.isAside_of_isClock)

theorem delay (sysClkHz ms : UInt32) : (Timer.delay sysClkHz ms : Driver σ Unit).Orderly config :=
  of_confined ((Confined.delay sysClkHz ms).mono fun _ => Access.isAside_of_isTimer)

theorem readMemory (address : UInt32) (length : Nat) : (Driver.readMemory address length : Driver σ _).Orderly config :=
  of_confined ((Confined.readMemory address length).mono fun _ => Access.isAside_of_isMemoryRead)

theorem prepare : (Card.prepare config : Driver σ Unit).Orderly config :=
  bind (of_confined (.write rfl)) fun _ => bind (of_confined (.write rfl)) fun _ => bind (program _) fun _ => delay _ _

theorem bringUp (config : Config) : (Card.bringUp config : Fallible σ Card).run.Orderly config :=
  (sequential config).bringUp execute readMemory delay program prepare

variable (card : Card)

theorem sendStatus : (card.sendStatus : Driver σ _).Orderly card.config :=
  bind (execute _) fun _ => (sequential _).pure _

theorem readBlock (block dest : UInt32) : (card.readBlock block dest : Driver σ Status).Orderly card.config :=
  bind ((sequential _).note _) fun _ => bind (execute _) fun _ => (sequential _).pure _

theorem awaitDrained : (Card.awaitDrained config : Driver σ (Option Unit)).Orderly config :=
  of_confined ((Confined.sequential _).poll (.bind (.read fun _ => rfl) fun _ => .pure _))

theorem writeBlock (block src : UInt32) : (card.writeBlock block src : Driver σ Status).Orderly card.config := by
  refine bind ((sequential _).note _) fun _ => bind (execute _) fun reply => ?_
  split
  · refine bind awaitDrained fun latch => ?_
    cases latch with
    | none => exact bind ((sequential _).note _) fun _ => (sequential _).pure _
    | some _ => exact (sequential _).pure _
  · exact bind ((sequential _).note _) fun _ => (sequential _).pure _

omit [Device σ] in
theorem checkData {transfer : Driver σ Status} (h : transfer.Orderly config) :
    (Card.checkData transfer : Fallible σ Unit).run.Orderly config :=
  (sequential _).bindLift h fun _ => (sequential _).pure _

theorem selfTest (block src dst : UInt32) :
    (card.selfTest block src dst : Fallible σ Unit).run.Orderly card.config := by
  have h := sequential (σ := σ) card.config
  refine h.bindLift (h.note _) fun _ => h.bindLift (of_confined (.writeMemory rfl)) fun _ =>
    h.bindFallible (checkData (writeBlock card block src)) fun _ _ _ =>
      h.bindLift (of_confined (.writeMemory rfl)) fun _ =>
        h.bindFallible (checkData (readBlock card block dst)) fun _ _ _ =>
          h.bindLift (readMemory _ _) fun readBack => ?_
  generalize Card.wrongWords readBack = wrong
  refine h.bindLift (h.notes _) fun _ => ?_
  split
  · exact h.lift (h.note _)
  · exact h.bindLift (h.note _) fun _ => h.pure _

end Driver.Orderly

/-! ### Sequences of operations -/

inductive Operation
  | bringUp (config : Config)
  | execute (config : Config) (command : Command)
  | sendStatus (card : Card)
  | readBlock (card : Card) (block dest : UInt32)
  | writeBlock (card : Card) (block src : UInt32)
  | selfTest (card : Card) (block src dst : UInt32)

namespace Operation

def config : Operation → Config
  | bringUp config | execute config _ => config
  | sendStatus card | readBlock card .. | writeBlock card .. | selfTest card .. => card.config

variable [Device σ]

/-- Runs the operation and forgets what it returns, be it an error. -/
def perform : Operation → Driver σ Unit
  | bringUp config => do let _ ← (Card.bringUp config).run
  | execute config command => do let _ ← command.execute config
  | sendStatus card => do let _ ← card.sendStatus
  | readBlock card block dest => do let _ ← card.readBlock block dest
  | writeBlock card block src => do let _ ← card.writeBlock block src
  | selfTest card block src dst => do let _ ← (card.selfTest block src dst).run

/-- The accesses of operations one after the other, each with the configuration that it is made under. -/
def trace : List Operation → σ → Nat → List (Config × Access)
  | [], _, _ => []
  | op :: ops, s, b =>
    let o := op.perform.run s b
    o.accesses.map (op.config, ·) ++
      match o.result with
      | .ok () => trace ops o.device o.budget
      | .error _ => []

theorem map_snd_trace (ops : List Operation) (s : σ) (b : Nat) :
    (trace ops s b).map Prod.snd = ((ops.forM perform : Driver σ Unit).run s b).accesses := by
  induction ops generalizing s b with
  | nil => rfl
  | cons op ops ih =>
    have hrest : ((op :: ops).forM perform : Driver σ Unit) = op.perform >>= fun _ => ops.forM perform := rfl
    rw [hrest, trace]
    simp only [Driver.run, Driver.bind_apply] at ih ⊢
    rcases op.perform s b with ⟨_ | _, s', b', xs, ns⟩
    · simp [Function.comp_def]
    · simp [Function.comp_def, ih]

theorem orderly_perform (op : Operation) : (op.perform : Driver σ Unit).Orderly op.config := by
  have h := Driver.Orderly.sequential (σ := σ) op.config
  cases op with
  | bringUp config => exact h.bind (.bringUp config) fun _ => h.pure _
  | execute config command => exact h.bind (.execute command) fun _ => h.pure _
  | sendStatus card => exact h.bind (.sendStatus card) fun _ => h.pure _
  | readBlock card block dest => exact h.bind (.readBlock card block dest) fun _ => h.pure _
  | writeBlock card block src => exact h.bind (.writeBlock card block src) fun _ => h.pure _
  | selfTest card block src dst => exact h.bind (.selfTest card block src dst) fun _ => h.pure _

theorem orderly_trace (ops : List Operation) (s : σ) (b : Nat) {f : Option Flight} (hf : Landed f) :
    Flight.Orderly f (trace ops s b) := by
  induction ops generalizing s b f with
  | nil => trivial
  | cons op ops ih =>
    obtain ⟨horderly, hlanded⟩ := op.orderly_perform ⟨s, b, rfl, rfl⟩ f hf
    refine horderly.append ?_
    split
    · next hok => exact ih _ _ (hlanded () hok)
    · trivial

/-- Between the launch of a command and the next write that sets one up, the command has settled. -/
theorem settled_between (ops : List Operation) (s : σ) (b : Nat) {before since after : List (Config × Access)}
    {config config' : Config} {word value : UInt32} {register : ControlRegister}
    (htrace : trace ops s b =
      before ++ (config, .write .command word) :: (since ++ (config', .write register value) :: after))
    (hregister : register.setsUp) (hsince : ∀ p ∈ since, p.2.setsUp = false) :
    (trace ops s b).map Prod.snd = ((ops.forM perform : Driver σ Unit).run s b).accesses ∧
      Settled config word (since.map Prod.snd) := by
  refine ⟨map_snd_trace ops s b, ?_⟩
  have horderly := orderly_trace ops s b landed_none
  rw [htrace] at horderly
  have hlaunched : Flight.Orderly (some ⟨config, word, []⟩) (since ++ (config', .write register value) :: after) :=
    horderly.of_append.2
  have hnext := hlaunched.of_append.1 hregister
  rw [foldl_of_not_setsUp hsince] at hnext
  exact hnext _ rfl

/-- A block is read, at the second poll, and the status asked for after it. -/
theorem settled_between_readBlock :
    let card := Card.fresh { cmdPoll := .attempts 2 }
    let device : Scripted := { otherwise := { cmdEvents := [0, 1] } }
    let ops : List Operation := [.readBlock card 3 0x1000, .sendStatus card]
    let since : List Access := [.read .cmdEvent 0, .read .cmdEvent 1, .read (.response 0) 0, .read (.response 1) 0,
      .read (.response 2) 0, .read (.response 3) 0, .read .dataEvent 1]
    let tr := trace ops device 40
    tr = tr.take 4 ++ (card.config, .write .command 0x1121) ::
        (since.map (card.config, ·) ++ (card.config, .write .argument 0) :: tr.drop 13) ∧
      tr.map Prod.snd = ((ops.forM perform : Driver Scripted Unit).run device 40).accesses ∧
      Settled card.config 0x1121 since := by
  intro card device ops since tr
  have htrace : tr = tr.take 4 ++ (card.config, .write .command 0x1121) ::
      (since.map (card.config, ·) ++ (card.config, .write .argument 0) :: tr.drop 13) := by decide +kernel
  obtain ⟨haccesses, hsettled⟩ := settled_between ops device 40 htrace rfl (by decide +kernel)
  exact ⟨htrace, haccesses, by simpa [Function.comp_def] using hsettled⟩

end Operation

end SecureDigital

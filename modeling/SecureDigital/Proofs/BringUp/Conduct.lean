import SecureDigital.Card.BringUp
import SecureDigital.Proofs.Confined
import SecureDigital.Proofs.Execute

/-!
# Running a script of commands under the step policy

`Conducts config x script Q`: every run of `x` launches the commands of `script` in order. A run that
returns has launched them all, and `Q` relates its exchanges to the result; a run that is aborted ends
with the first exchange that failed; a run that halts is somewhere in the script. The rules follow the
program text: `Conducts.bind`, `Conducts.step_bind` for a command, `Conducts.lift_bind` for what takes
no part in any command.
-/

namespace SecureDigital

variable {σ α β : Type}

theorem Opcode.index_lt (op : Opcode) : op.index < 64 := by cases op <;> decide

namespace Command

def launch (c : Command) : Launch := ⟨c.index, c.argument⟩

theorem exchange_index_of_lt {c : Command} (h : c.index < 64) (answers : List Access) :
    (c.exchange answers).index = c.index := by
  have hmask : ∀ v : BitVec 8, UInt8.ofBitVec v < 64 → UInt8.ofBitVec v &&& 63 = UInt8.ofBitVec v := by
    decide +kernel
  rw [c.exchange_index, hmask c.index.toBitVec h]

theorem exchange_launch {c : Command} (h : c.index < 64) (answers : List Access) :
    (c.exchange answers).launch = c.launch := by
  rw [Exchange.launch, exchange_index_of_lt h]
  rfl

end Command

/-- The accesses end with the launch of `e` and its answers, none of them data read back. -/
def Exchange.EndsAt (e : Exchange) (xs : List Access) : Prop :=
  (∃ front, xs = front ++ .write .command e.word :: e.answers) ∧ ∀ a ∈ e.answers, a.isReport

theorem Exchange.EndsAt.prepend {e : Exchange} {xs : List Access} (h : e.EndsAt xs) (ys : List Access) :
    e.EndsAt (ys ++ xs) := by
  obtain ⟨⟨front, rfl⟩, hreports⟩ := h
  exact ⟨⟨ys ++ front, by rw [List.append_assoc]⟩, hreports⟩

/-- How a run with the exchanges `es` may go through `script`. -/
inductive Conducted (config : Config) (script : List Launch) (Q : List Exchange → α → Prop) :
    Except Halt (Except Error α) → List Access → List Exchange → Prop
  | completed {a : α} {xs : List Access} {es : List Exchange} (hscript : es.map Exchange.launch = script)
      (hpassed : config.stepPolicy = .abort → ∀ e ∈ es, e.status = .ok) (hpost : Q es a) :
      Conducted config script Q (.ok (.ok a)) xs es
  | aborted {xs : List Access} {es : List Exchange} {e : Exchange} (hpolicy : config.stepPolicy = .abort)
      (hscript : (es ++ [e]).map Exchange.launch <+: script) (hpassed : ∀ f ∈ es, f.status = .ok)
      (hfailed : e.status ≠ .ok) (hended : e.Ended config) (hlast : e.EndsAt xs) :
      Conducted config script Q (.ok (.error (.stepFailed e.index e.status))) xs (es ++ [e])
  | halted {h : Halt} {xs : List Access} {es : List Exchange} (hscript : es.map Exchange.launch <+: script)
      (hpassed : config.stepPolicy = .abort → h ≠ .refused → ∀ e ∈ es, e.Ended config → e.status = .ok) :
      Conducted config script Q (.error h) xs es

namespace Conducted

variable {config : Config} {script script' : List Launch} {Q : List Exchange → α → Prop}
  {xs ys : List Access} {es fs : List Exchange}

theorem error_of_halt {h : Halt} (hx : Conducted config script Q (.error h) xs es) (Q' : List Exchange → β → Prop)
    (hstart : script <+: script') : Conducted config script' Q' (.error h) xs es := by
  cases hx with
  | halted hscript hpassed => exact .halted (hscript.trans hstart) hpassed

theorem error_of_error {e : Error} (hx : Conducted config script Q (.ok (.error e)) xs es)
    (Q' : List Exchange → β → Prop) (hstart : script <+: script') :
    Conducted config script' Q' (.ok (.error e)) xs es := by
  cases hx with
  | aborted hpolicy hscript hpassed hfailed hended hlast =>
    exact .aborted hpolicy (hscript.trans hstart) hpassed hfailed hended hlast

theorem launches_prefix_script {r : Except Halt (Except Error α)} (hx : Conducted config script Q r xs es) :
    es.map Exchange.launch <+: script := by
  cases hx with
  | completed hscript => exact hscript ▸ List.prefix_rfl
  | aborted _ hscript => exact hscript
  | halted hscript => exact hscript

/-- A script gives up on a command that failed, not on the card. -/
theorem ne_cardNotReady {r : Except Halt (Except Error α)} (hx : Conducted config script Q r xs es) :
    r ≠ .ok (.error .cardNotReady) := by
  cases hx <;> exact nofun

theorem after {r : Except Halt (Except Error α)} (hx : Conducted config script Q r xs es) (ys : List Access) :
    Conducted config script Q r (ys ++ xs) es := by
  cases hx with
  | completed hscript hpassed hpost => exact .completed hscript hpassed hpost
  | aborted hpolicy hscript hpassed hfailed hended hlast =>
    exact .aborted hpolicy hscript hpassed hfailed hended (hlast.prepend ys)
  | halted hscript hpassed => exact .halted hscript hpassed

/-- What runs after a script that was completed. -/
theorem prepend {Q' Q'' : List Exchange → α → Prop} {r : Except Halt (Except Error α)}
    (hscript : es.map Exchange.launch = script)
    (hpassed : config.stepPolicy = .abort → ∀ e ∈ es, e.status = .ok)
    (hpost : ∀ fs a, Q' fs a → Q'' (es ++ fs) a) (hx : Conducted config script' Q' r ys fs) :
    Conducted config (script ++ script') Q'' r (xs ++ ys) (es ++ fs) := by
  subst hscript
  cases hx with
  | completed hscript' hpassed' hpost' =>
    refine .completed (by rw [List.map_append, hscript']) (fun hpolicy e he => ?_) (hpost _ _ hpost')
    exact (List.mem_append.1 he).elim (hpassed hpolicy e) (hpassed' hpolicy e)
  | aborted hpolicy hscript' hpassed' hfailed hended hlast =>
    rw [← List.append_assoc]
    refine .aborted hpolicy ?_ (fun e he => ?_) hfailed hended (hlast.prepend xs)
    · rw [List.append_assoc, List.map_append]
      exact (List.prefix_append_right_inj _).2 hscript'
    · exact (List.mem_append.1 he).elim (hpassed hpolicy e) (hpassed' e)
  | halted hscript' hpassed' =>
    refine .halted ?_ (fun hpolicy hcause e he hended => ?_)
    · rw [List.map_append]
      exact (List.prefix_append_right_inj _).2 hscript'
    · exact (List.mem_append.1 he).elim (hpassed hpolicy e) (hpassed' hpolicy hcause e · hended)

end Conducted

section Adds

variable {c : Command} {xs answers : List Access}

theorem adds_launched (h : ∀ a ∈ answers, a.isReport) :
    Adds (.write .argument c.argument :: c.armed.map Access.ofWrite ++ .write .command c.word :: answers)
      [c.exchange answers] :=
  .of_launch (fun _ => Command.isQuiet_armed) fun a ha => Access.isAnswer_of_isReport (h a ha)

theorem adds_unlaunched (h : xs <+: .write .argument c.argument :: c.armed.map Access.ofWrite) : Adds xs [] := by
  rcases List.prefix_cons_iff.1 h with rfl | ⟨ys, rfl, hys⟩
  · exact .nil
  · exact .of_argument (.of_isQuiet fun a ha => Command.isQuiet_armed (hys.subset ha))

/-- A command is launched if it returns; if it halts, it may have been. -/
theorem Executed.adds {config : Config} {r : Except Halt Reply} (hindex : c.index < 64) (h : Executed config c r xs) :
    (∃ e : Exchange, r = .ok e.reply ∧ e.launch = c.launch ∧ Adds xs [e]) ∨
      ∃ halt es, r = .error halt ∧ es.map Exchange.launch <+: [c.launch] ∧ Adds xs es := by
  cases h with
  | returned hreports hended =>
    exact .inl ⟨_, rfl, Command.exchange_launch hindex _, adds_launched hreports⟩
  | unlaunched hxs => exact .inr ⟨_, [], rfl, List.nil_prefix, adds_unlaunched hxs⟩
  | broken hreports hended =>
    refine .inr ⟨_, _, rfl, ?_, adds_launched hreports⟩
    simp only [List.map_singleton, Command.exchange_launch hindex, List.prefix_rfl]

end Adds

/-- Every run of `x` goes through `script`. -/
def Conducts (config : Config) (x : Fallible σ α) (script : List Launch) (Q : List Exchange → α → Prop) :
    Prop :=
  ∀ ⦃r xs⦄, x.run.Runs r xs → ∃ es, Adds xs es ∧ Conducted config script Q r xs es

namespace Conducts

variable {config : Config} {script script' : List Launch} {Q : List Exchange → α → Prop}
  {Q' : List Exchange → β → Prop}

theorem of_pure {a : α} (h : Q [] a) : Conducts config (pure a : Fallible σ α) [] Q := by
  intro r xs hrun
  obtain ⟨rfl, rfl⟩ := Driver.Runs.of_pure hrun
  exact ⟨[], .nil, .completed rfl (fun _ => nofun) h⟩

theorem imp {x : Fallible σ α} {Q' : List Exchange → α → Prop} (hx : Conducts config x script Q)
    (hQ : ∀ es a, es.map Exchange.launch = script → Q es a → Q' es a) : Conducts config x script Q' := by
  intro r xs hrun
  obtain ⟨es, hadds, hes⟩ := hx hrun
  refine ⟨es, hadds, ?_⟩
  cases hes with
  | completed hscript hpassed hpost => exact .completed hscript hpassed (hQ _ _ hscript hpost)
  | aborted hpolicy hscript hpassed hfailed hended hlast =>
    exact .aborted hpolicy hscript hpassed hfailed hended hlast
  | halted hscript hpassed => exact .halted hscript hpassed

theorem bind {x : Fallible σ α} {f : α → Fallible σ β} (hx : Conducts config x script Q)
    (hf : ∀ a es, es.map Exchange.launch = script → Q es a →
      Conducts config (f a) script' fun fs b => Q' (es ++ fs) b) :
    Conducts config (x >>= f) (script ++ script') Q' := by
  intro r xs hrun
  rcases hrun.bindFallible with ⟨h, rfl, hstop⟩ | ⟨e, rfl, hstop⟩ | ⟨a, ys, zs, rfl, hys, hzs⟩
  · obtain ⟨es, hadds, hes⟩ := hx hstop
    exact ⟨es, hadds, hes.error_of_halt Q' (List.prefix_append _ _)⟩
  · obtain ⟨es, hadds, hes⟩ := hx hstop
    exact ⟨es, hadds, hes.error_of_error Q' (List.prefix_append _ _)⟩
  · obtain ⟨es, hadds, hes⟩ := hx hys
    rcases hes with ⟨hscript, hpassed, hpost⟩
    obtain ⟨fs, hadds', hfs⟩ := hf a es hscript hpost hzs
    exact ⟨es ++ fs, hadds.append hadds', .prepend hscript hpassed (fun _ _ h => h) hfs⟩

theorem lift_bind {m : Driver σ α} {f : α → Fallible σ β} (hm : m.Confined Access.isQuiet)
    (hf : ∀ a, Conducts config (f a) script Q') : Conducts config (ExceptT.lift m >>= f) script Q' := by
  intro r xs hrun
  rcases hrun.bindLift with ⟨h, rfl, hstop⟩ | ⟨a, ys, zs, rfl, hys, hzs⟩
  · exact ⟨[], hm.adds_nil hstop, .halted List.nil_prefix fun _ _ => nofun⟩
  · obtain ⟨es, hadds, hes⟩ := hf a hzs
    exact ⟨es, (hm.adds_nil hys).append hadds, hes.after ys⟩

section Steps

variable [Device σ] {c : Command}

/-- A command of the bring-up: under the abort policy it passes or ends the run. -/
theorem step (hindex : c.index < 64) :
    Conducts config (Card.step config c : Fallible σ Reply) [c.launch] fun es reply =>
      ∃ answers, (∀ a ∈ answers, a.isReport) ∧ es = [c.exchange answers] ∧
        reply = (c.exchange answers).reply := by
  intro r xs hrun
  have hlaunch (answers : List Access) : [c.exchange answers].map Exchange.launch = [c.launch] := by
    rw [List.map_singleton, Command.exchange_launch hindex]
  rcases hrun.bindLift with ⟨h, rfl, hstop⟩ | ⟨reply, ys, zs, rfl, hys, hzs⟩
  · cases hstop.execute with
    | unlaunched hxs => exact ⟨[], adds_unlaunched hxs, .halted List.nil_prefix fun _ _ => nofun⟩
    | broken hreports hended =>
      refine ⟨_, adds_launched hreports, .halted (hlaunch _ ▸ List.prefix_rfl) fun _ hcause e he hover => ?_⟩
      obtain rfl := List.mem_singleton.1 he
      exact absurd hover (hended.resolve_left hcause)
  cases hys.execute with
  | @returned answers hreports hended =>
    -- Only a command that failed asks for the policy.
    by_cases hok : (c.exchange answers).status = .ok
    · rw [if_pos (show (c.exchange answers).reply.status = .ok from hok)] at hzs
      obtain ⟨rfl, rfl⟩ := Driver.Runs.of_pure hzs
      rw [List.append_nil]
      refine ⟨_, adds_launched hreports, .completed (hlaunch _) (fun _ e he => ?_) ⟨_, hreports, rfl, rfl⟩⟩
      exact List.mem_singleton.1 he ▸ hok
    · rw [if_neg (show (c.exchange answers).reply.status ≠ .ok from hok)] at hzs
      cases hpolicy : config.stepPolicy <;> rw [hpolicy] at hzs
      case proceed =>
        obtain ⟨rfl, rfl⟩ := Driver.Runs.of_pure hzs.of_lift_notes_bind
        rw [List.append_nil]
        exact ⟨_, adds_launched hreports, .completed (hlaunch _) (fun h => absurd (hpolicy.symm.trans h) nofun)
          ⟨_, hreports, rfl, rfl⟩⟩
      case abort =>
        obtain ⟨rfl, rfl⟩ := Driver.Runs.of_pure hzs.of_lift_notes_bind
        rw [List.append_nil]
        refine ⟨[] ++ [_], adds_launched hreports, ?_⟩
        rw [← Command.exchange_index_of_lt hindex answers]
        exact .aborted hpolicy (hlaunch _ ▸ List.prefix_rfl) nofun hok hended ⟨⟨_, rfl⟩, hreports⟩

theorem step_bind {f : Reply → Fallible σ β} (hindex : c.index < 64)
    (hf : ∀ e : Exchange, e.launch = c.launch → Conducts config (f e.reply) script fun es b => Q' (e :: es) b) :
    Conducts config (Card.step config c >>= f) (c.launch :: script) Q' := by
  refine (step hindex).bind fun reply es _ hpost => ?_
  obtain ⟨answers, -, rfl, rfl⟩ := hpost
  exact hf _ (Command.exchange_launch hindex answers)

/-- A command whose data are read from memory if it passed. -/
theorem step_readMemory {address : UInt32} {length : Nat} {f : Vector UInt8 length → Fallible σ β} {b : β}
    (hindex : c.index < 64)
    (hread : ∀ (e : Exchange) (block : Vector UInt8 length), e.launch = c.launch → e.status = .ok →
      e.block? address length = some block → Conducts config (f block) [] fun es b => Q' (e :: es) b)
    (hskip : ∀ e : Exchange, e.launch = c.launch → e.status ≠ .ok → Q' [e] b) :
    Conducts config (Card.step config c >>= fun reply =>
      if reply.status = .ok then ExceptT.lift (Driver.readMemory address length) >>= f else pure b)
      [c.launch] Q' := by
  -- Not by `bind`: the read adds an answer to the exchange that the command has made.
  intro r xs hrun
  rcases hrun.bindFallible with ⟨h, rfl, hstop⟩ | ⟨e, rfl, hstop⟩ | ⟨reply, ys, zs, rfl, hys, hzs⟩
  · obtain ⟨es, hadds, hes⟩ := step hindex hstop
    exact ⟨es, hadds, hes.error_of_halt Q' List.prefix_rfl⟩
  · obtain ⟨es, hadds, hes⟩ := step hindex hstop
    exact ⟨es, hadds, hes.error_of_error Q' List.prefix_rfl⟩
  obtain ⟨es, hadds, ⟨hscript, hpassed, answers, hreports, rfl, rfl⟩⟩ := step hindex hys
  by_cases hok : (c.exchange answers).status = .ok
  · rw [if_pos (show (c.exchange answers).reply.status = .ok from hok)] at hzs
    have hadds' : Adds ys ([] ++ [c.exchange answers]) := hadds
    rcases hzs.bindLift with ⟨h, rfl, hstop⟩ | ⟨block, us, vs, rfl, hus, hvs⟩
    · have hzs' := Driver.Confined.readMemory address length hstop
      refine ⟨_, hadds'.andThen fun a ha => Access.isAnswer_of_isMemoryRead (hzs' a ha),
        .halted (hscript ▸ List.prefix_rfl) fun _ _ e he _ => ?_⟩
      obtain rfl := List.mem_singleton.1 he
      exact (congrArg Reply.status (Exchange.reply_andThen hzs')).trans hok
    · have hus' := Driver.Confined.readMemory address length hus
      have hok' : (c.exchange (answers ++ us)).status = .ok :=
        (congrArg Reply.status (Exchange.reply_andThen hus')).trans hok
      obtain ⟨_, ⟨⟩, rfl⟩ | ⟨⟨⟩, -⟩ | ⟨⟨⟩, -⟩ := hus.of_readMemory
      have hblock := (c.exchange answers).block?_andThen_readMemory hreports address block
      obtain ⟨fs, hadds'', hfs⟩ := hread _ block (Command.exchange_launch hindex _) hok' hblock hvs
      rw [← List.append_assoc]
      have hscript' : ([] ++ [(c.exchange answers).andThen [.readMemory address length block.toArray]]).map
          Exchange.launch = [c.launch] := hscript
      refine ⟨_, (hadds'.andThen fun a ha => Access.isAnswer_of_isMemoryRead (hus' a ha)).append hadds'', ?_⟩
      rw [← List.append_nil [c.launch]]
      refine .prepend hscript' (fun _ e he => ?_) (fun _ _ h => h) hfs
      obtain rfl := List.mem_singleton.1 he
      exact hok'
  · rw [if_neg (show (c.exchange answers).reply.status ≠ .ok from hok)] at hzs
    obtain ⟨rfl, rfl⟩ := Driver.Runs.of_pure hzs
    rw [List.append_nil]
    exact ⟨_, hadds, .completed hscript hpassed (hskip _ (Command.exchange_launch hindex _) hok)⟩

end Steps

end Conducts

end SecureDigital

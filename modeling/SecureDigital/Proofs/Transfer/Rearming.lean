import SecureDigital.Proofs.BringUp.Script
import SecureDigital.Proofs.Transfer.Calls

/-!
# When the DMA reader is armed again

A write of the reader's length arms it for a block. Before the next block is armed, the driver has read
the reader's latch as set (`Drained`), unless the write that armed it gave up on the reader (`GaveUp`):
its command failed, so that the reader may never start, or the limit of the latch was reached. A host
that stops at the first transfer that is not `ok` never arms a reader that is still busy.
-/

namespace SecureDigital

namespace Access

def armsReader : Access → Bool
  | .write .readerLength _ => true
  | _ => false

theorem not_armsReader_of_isReport {a : Access} (h : a.isReport) : ¬ a.armsReader := by
  cases a <;> first | exact Bool.false_ne_true | cases h

end Access

/-- The reader's latch was read as set. -/
def Drained (xs : List Access) : Prop := ∃ latch ∈ Access.values .readerDone xs, latch ≠ 0

instance (xs : List Access) : Decidable (Drained xs) := inferInstanceAs (Decidable (∃ latch ∈ _, latch ≠ 0))

/-- How a write may give up on the reader that it armed, when `xs` follow the arming. -/
inductive GaveUp (config : Config) (xs : List Access) : Prop
  /-- The write command is launched, and its command phase fails. -/
  | commandFailed {e : Exchange} (hlaunch : .write .command e.word :: e.answers <+: xs) (hindex : e.index = 24)
      (hended : e.Ended config) (hfailed : e.commandStatus ≠ .ok) : GaveUp config xs
  | latchExhausted {n : UInt32} (hlimit : config.dmaPoll = .attempts n)
      (hidle : List.replicate n.toNat 0 <+: Access.values .readerDone xs) : GaveUp config xs

theorem Drained.append {xs : List Access} (h : Drained xs) (ys : List Access) : Drained (xs ++ ys) := by
  obtain ⟨latch, hmem, hlatch⟩ := h
  refine ⟨latch, ?_, hlatch⟩
  rw [Access.values_append]
  exact List.mem_append_left _ hmem

theorem GaveUp.append {config : Config} {xs : List Access} (h : GaveUp config xs) (ys : List Access) :
    GaveUp config (xs ++ ys) := by
  cases h with
  | commandFailed hlaunch hindex hended hfailed =>
    exact .commandFailed (hlaunch.trans (List.prefix_append _ _)) hindex hended hfailed
  | latchExhausted hlimit hidle =>
    refine .latchExhausted hlimit (hidle.trans ?_)
    rw [Access.values_append]
    exact List.prefix_append _ _

section Position

variable {as ms pre tail ys zs : List Access} {n v : UInt32}

/-- The accesses have at most one arming, so it is where it is. -/
theorem eq_of_arming (hpre : ∀ a ∈ pre, ¬ a.armsReader) (htail : ∀ a ∈ tail, ¬ a.armsReader)
    (h : pre ++ .write .readerLength n :: tail = as ++ .write .readerLength v :: ms) : tail = ms := by
  rcases List.append_eq_append_iff.1 h with ⟨cs, rfl, hcs⟩ | ⟨cs, rfl, hcs⟩
  · cases cs with
    | nil => exact (List.cons.inj hcs).2
    | cons c cs =>
      obtain ⟨-, rfl⟩ := List.cons.inj hcs
      exact absurd rfl (htail (.write .readerLength v) (by simp))
  · cases cs with
    | nil => exact (List.cons.inj hcs).2.symm
    | cons c cs =>
      obtain ⟨rfl, -⟩ := List.cons.inj hcs
      exact absurd rfl (hpre (.write .readerLength v) (by simp))

theorem false_of_arming (hpre : ∀ a ∈ pre, ¬ a.armsReader) (h : pre = as ++ .write .readerLength v :: ms) : False := by
  subst h
  exact hpre (.write .readerLength v) (by simp) rfl

/-- An arming in a sequence is in its first part or in its second. -/
theorem append_eq_arming (h : ys ++ zs = as ++ .write .readerLength v :: ms) :
    (∃ us, ys = as ++ .write .readerLength v :: us ∧ ms = us ++ zs) ∨
      ∃ us, as = ys ++ us ∧ zs = us ++ .write .readerLength v :: ms := by
  rcases List.append_eq_append_iff.1 h with ⟨cs, has, hzs⟩ | ⟨cs, rfl, hcs⟩
  · exact .inr ⟨cs, has, hzs⟩
  · cases cs with
    | nil => exact .inr ⟨[], by simp, by simpa using hcs.symm⟩
    | cons c cs =>
      obtain ⟨rfl, rfl⟩ := List.cons.inj hcs
      exact .inl ⟨cs, rfl, rfl⟩

end Position

namespace Command

variable {c : Command} {as ms tail : List Access} {v : UInt32}

theorem not_armsReader_launched {answers : List Access} (h : ∀ a ∈ answers, a.isReport) :
    ∀ a ∈ .write .command c.word :: answers, ¬ a.armsReader :=
  List.forall_mem_cons.2 ⟨Bool.false_ne_true, fun a ha => Access.not_armsReader_of_isReport (h a ha)⟩

theorem not_armsReader_armed (hc : ∀ src, c.transfer ≠ .write src) :
    ∀ a ∈ .write .argument c.argument :: c.armed.map Access.ofWrite, ¬ a.armsReader := by
  unfold armed
  split
  case h_1 | h_2 => simp [Access.ofWrite, Access.armsReader]
  case h_3 src hsrc => exact absurd hsrc (hc src)

theorem eq_of_arming (htail : ∀ a ∈ tail, ¬ a.armsReader)
    (h : .write .argument c.argument :: c.armed.map Access.ofWrite ++ tail =
      as ++ .write .readerLength v :: ms) : tail = ms := by
  cases hc : c.transfer with
  | none | read =>
    refine (false_of_arming (fun a ha => ?_) h).elim
    exact (List.mem_append.1 ha).elim (not_armsReader_armed (by simp [hc]) a) (htail a)
  | write src =>
    have hpre : ∀ a ∈ [Access.write .argument c.argument, .write .blockSize c.blockSize,
        .write .blockCount c.blockCount, .write .readerAddress src], ¬ a.armsReader := by
      simp [Access.armsReader]
    rw [armed, hc] at h
    exact SecureDigital.eq_of_arming hpre htail h

end Command

section Calls

variable {config : Config} {card : Card} {as ms xs : List Access} {v : UInt32}

/-- After an arming the command is launched and answered. -/
theorem Executed.after_arming {c : Command} {r : Except Halt Reply} (h : Executed config c r xs)
    (hxs : xs = as ++ .write .readerLength v :: ms) :
    ∃ answers, (∀ a ∈ answers, a.isReport) ∧ ms <+: .write .command c.word :: answers ∧
      ∀ reply, r = .ok reply → ms = .write .command c.word :: answers ∧ reply = (c.exchange answers).reply ∧
        (c.exchange answers).Ended config := by
  cases h with
  | @returned answers hreports hended =>
    obtain rfl := Command.eq_of_arming (Command.not_armsReader_launched hreports) hxs
    refine ⟨answers, hreports, List.prefix_rfl, fun reply hreply => ?_⟩
    cases hreply
    exact ⟨rfl, rfl, hended⟩
  | unlaunched hfront =>
    obtain ⟨rest, hrest⟩ := hfront
    rw [hxs, List.append_assoc, List.cons_append, ← List.append_nil (Access.write .argument _ :: _)] at hrest
    have hnil : [] = ms ++ rest := Command.eq_of_arming nofun hrest.symm
    obtain ⟨rfl, -⟩ := List.append_eq_nil_iff.1 hnil.symm
    exact ⟨[], nofun, List.nil_prefix, nofun⟩
  | @broken _ answers hreports _ =>
    obtain rfl := Command.eq_of_arming (Command.not_armsReader_launched hreports) hxs
    exact ⟨answers, hreports, List.prefix_rfl, nofun⟩

theorem Executed.not_armsReader {c : Command} {r : Except Halt Reply} (h : Executed config c r xs)
    (hc : ∀ src, c.transfer ≠ .write src) : ∀ a ∈ xs, ¬ a.armsReader := by
  have hwhole {answers : List Access} (hreports : ∀ a ∈ answers, a.isReport) :
      ∀ a ∈ .write .argument c.argument :: c.armed.map Access.ofWrite ++ .write .command c.word :: answers,
        ¬ a.armsReader := by
    intro a ha
    exact (List.mem_append.1 ha).elim (Command.not_armsReader_armed hc a)
      (Command.not_armsReader_launched hreports a)
  cases h with
  | returned hreports => exact hwhole hreports
  | unlaunched hfront => exact fun a ha => Command.not_armsReader_armed hc a (hfront.subset ha)
  | broken hreports => exact hwhole hreports

theorem values_readerDone_launched {word : UInt32} {answers : List Access} (h : ∀ a ∈ answers, a.isReport) :
    Access.values .readerDone (.write .command word :: answers) = [] :=
  Access.values_readerDone_of_servesCommand <|
    List.forall_mem_cons.2 ⟨rfl, fun a ha => Access.servesCommand_of_isReport (h a ha)⟩

/-- The wait for the latch sees it set, or reads all that its limit lets it read. -/
theorem PolledRegister.drained_or_gaveUp {r : Except Halt (Option Unit)} {word : UInt32} {answers ys : List Access}
    {status status' : Status} (h : PolledRegister config.dmaPoll .readerDone Card.drained? r ys)
    (hreports : ∀ a ∈ answers, a.isReport)
    (hstatus : (r.map fun latch => latch.elim .timeout fun _ => status') = .ok status) :
    (Drained (.write .command word :: answers ++ ys) ∨ GaveUp config (.write .command word :: answers ++ ys)) ∧
      (status = .ok → Drained (.write .command word :: answers ++ ys)) := by
  have hvalues {words : List UInt32} : Access.values .readerDone
      (.write .command word :: answers ++ words.map (.read .readerDone)) = words := by
    rw [Access.values_append, values_readerDone_launched hreports, Access.values_map_read]
    simp
  cases h with
  | @hit idle latch _ _ _ hlast =>
    have hdrained : Drained (.write .command word :: answers ++ (idle ++ [latch]).map (.read .readerDone)) := by
      refine ⟨latch, ?_, Card.drained?_eq_some_iff.1 hlast⟩
      rw [hvalues]
      simp
    exact ⟨.inl hdrained, fun _ => hdrained⟩
  | @spent idle n hidle hlimit hlength =>
    cases hstatus
    refine ⟨.inr (.latchExhausted hlimit ?_), nofun⟩
    have hzero : idle = List.replicate n.toNat 0 := hlength ▸ Card.eq_replicate_of_not_drained hidle
    have hread : Access.values .readerDone (.write .command word :: answers ++ idle.map (.read .readerDone)) =
        List.replicate n.toNat 0 := hvalues.trans hzero
    exact hread ▸ List.prefix_rfl
  | halted => cases hstatus

/-- A write that returns has seen its block leave or given up on the reader, and says so. -/
theorem Written.after_arming {block src : UInt32} {r : Except Halt Status}
    (h : Written card.config (card.writeCommand block src) r xs) (hxs : xs = as ++ .write .readerLength v :: ms) :
    (∀ a ∈ ms, ¬ a.armsReader) ∧
      ∀ status, r = .ok status → (Drained ms ∨ GaveUp card.config ms) ∧ (status = .ok → Drained ms) := by
  cases h with
  | unfinished hrun =>
    obtain ⟨answers, hreports, hms, -⟩ := hrun.after_arming hxs
    exact ⟨fun a ha => Command.not_armsReader_launched hreports a (hms.subset ha), nofun⟩
  | failed hrun hfailed =>
    obtain ⟨answers, hreports, -, hreply⟩ := hrun.after_arming hxs
    obtain ⟨rfl, rfl, hended⟩ := hreply _ rfl
    refine ⟨Command.not_armsReader_launched hreports, fun status hstatus => ?_⟩
    cases hstatus
    refine ⟨.inr (.commandFailed List.prefix_rfl ?_ hended hfailed), fun hok => absurd hok hfailed⟩
    show (card.writeCommand block src |>.exchange answers).index = 24
    rw [Command.exchange_index]
    show Opcode.writeSingleBlock.index &&& 63 = 24
    decide
  | @awaited reply r us ys hrun hpassed hlatch =>
    have hys : ∀ a ∈ ys, ¬ a.armsReader := by
      obtain ⟨words, rfl⟩ := hlatch.exists_words
      intro a ha
      obtain ⟨w, -, rfl⟩ := List.mem_map.1 ha
      exact Bool.false_ne_true
    obtain ⟨ms, hus, rfl⟩ | ⟨us, -, hys'⟩ := append_eq_arming hxs
    · obtain ⟨answers, hreports, -, hreply⟩ := hrun.after_arming hus
      obtain ⟨rfl, rfl, hended⟩ := hreply _ rfl
      refine ⟨fun a ha => ?_, fun status hstatus => ?_⟩
      · exact (List.mem_append.1 ha).elim (Command.not_armsReader_launched hreports a) (hys a)
      · exact hlatch.drained_or_gaveUp hreports hstatus
    · exact (false_of_arming hys hys').elim

/-- A call that returns has settled the reader if it armed it. -/
theorem Driver.Runs.perform_after_arming {σ : Type} [Device σ] {call : HostCall} {r : Except Halt (Option Status)}
    (h : (card.perform call : Driver σ _).Runs r xs) (hxs : xs = as ++ .write .readerLength v :: ms) :
    (∀ a ∈ ms, ¬ a.armsReader) ∧ ∀ status, r = .ok status →
      (Drained ms ∨ GaveUp card.config ms) ∧ ((∀ s, status = some s → s = .ok) → Drained ms) := by
  cases call with
  | writeMemory address bytes =>
    have hspares : (card.perform (.writeMemory address bytes) : Driver σ _).Confined fun a => !a.armsReader :=
      .bind (.writeMemory rfl) fun _ => .pure _
    exact (false_of_arming (fun a ha => by simpa using hspares h a ha) hxs).elim
  | writeBlock block src =>
    obtain ⟨r', hwrite, rfl⟩ := h.map
    obtain ⟨hms, hstatus⟩ := hwrite.writeBlock.after_arming hxs
    refine ⟨hms, fun status hr => ?_⟩
    cases r' with
    | error e => cases hr
    | ok status' =>
      cases hr
      obtain ⟨hsettled, hok⟩ := hstatus status' rfl
      exact ⟨hsettled, fun hall => hok (hall status' rfl)⟩
  | readBlock block dest =>
    obtain ⟨r', hread, rfl⟩ := h.map
    obtain ⟨_, hrun, -⟩ := hread.readBlock
    exact (false_of_arming (hrun.not_armsReader nofun) hxs).elim

/-- Before the reader is armed again, it has been seen done or given up. -/
theorem performs_rearming {σ : Type} [Device σ] {calls : List HostCall} {r : Except Halt (List (Option Status))}
    {bs : List Access} {w : UInt32} (h : (card.performs calls : Driver σ _).Runs r xs)
    (hxs : xs = as ++ .write .readerLength v :: (ms ++ .write .readerLength w :: bs)) :
    (Drained ms ∨ GaveUp card.config ms) ∧
      ∀ statuses, r = .ok statuses → (∀ status, some status ∈ statuses → status = .ok) → Drained ms := by
  induction calls generalizing xs as r with
  | nil =>
    obtain ⟨-, rfl⟩ := h.of_pure
    simp at hxs
  | cons call calls ih =>
    rcases h.performs_cons with ⟨e, rfl, hcall⟩ | ⟨status, r', ys, zs, rfl, hcall, hcalls, rfl⟩
    · exact absurd rfl ((hcall.perform_after_arming hxs).1 (.write .readerLength w) (by simp))
    rcases append_eq_arming hxs with ⟨us, hus, hms⟩ | ⟨us, -, hus⟩
    · -- The call armed the reader, so it settled it, and the next arming comes later.
      obtain ⟨hspares, hstatus⟩ := hcall.perform_after_arming hus
      obtain ⟨hsettled, hok⟩ := hstatus status rfl
      rcases append_eq_arming hms.symm with ⟨vs, rfl, -⟩ | ⟨vs, rfl, -⟩
      · exact absurd rfl (hspares (.write .readerLength w) (by simp))
      refine ⟨hsettled.imp (·.append vs) (·.append vs), fun statuses hr hall => ?_⟩
      cases r' with
      | error e => cases hr
      | ok statuses' =>
        cases hr
        exact (hok fun s hs => hall s (by simp [hs])).append vs
    · obtain ⟨hsettled, hok⟩ := ih hcalls hus
      refine ⟨hsettled, fun statuses hr hall => ?_⟩
      cases r' with
      | error e => cases hr
      | ok statuses' =>
        cases hr
        exact hok statuses' rfl fun status hstatus => hall status (List.mem_cons_of_mem _ hstatus)

end Calls

theorem performs_rearming_twice :
    let calls := [HostCall.writeBlock 0 0, .writeBlock 1 0]
    let o := ((Card.fresh {}).performs calls).run ({} : Scripted) 100
    ∃ as ms bs, o.result = .ok [some .ok, some .ok] ∧
      o.accesses = as ++ .write .readerLength 512 :: (ms ++ .write .readerLength 512 :: bs) ∧ Drained ms := by
  intro calls o
  have hends : Driver.ends ((Card.fresh {}).performs calls) ({} : Scripted) 100
      fun statuses => statuses = [some .ok, some .ok] := by decide +kernel
  obtain ⟨statuses, hstatuses, hresult⟩ := Driver.exists_of_ends hends
  obtain rfl := of_decide_eq_true hstatuses
  have hsplit : o.accesses = o.accesses.take 4 ++ .write .readerLength 512 ::
      ((o.accesses.drop 5).take 12 ++ .write .readerLength 512 :: o.accesses.drop 18) := by decide +kernel
  refine ⟨_, _, _, hresult, hsplit, (performs_rearming ⟨_, _, hresult, rfl⟩ hsplit).2 _ rfl fun s hs => ?_⟩
  simpa using hs

/-- A write whose command fails leaves the reader armed, and the next one arms it again. -/
theorem armed_again_undrained :
    let o := (Card.bringUp {}).run.run (Scripted.willingBut (List.replicate 12 1 ++ [5, 5])) 3000
    ∃ card as ms bs, o.result = .ok (.ok card) ∧
      ((card.performs [.writeBlock 0 0, .writeBlock 1 0]).run o.device 100).accesses =
        as ++ .write .readerLength 512 :: (ms ++ .write .readerLength 512 :: bs) ∧ ¬ Drained ms := by
  intro o
  have hreturns : Driver.returns (Card.bringUp {}) (Scripted.willingBut (List.replicate 12 1 ++ [5, 5])) 3000
      fun card =>
        let xs := ((card.performs [.writeBlock 0 0, .writeBlock 1 0]).run o.device 100).accesses
        xs = xs.take 4 ++ .write .readerLength 512 ::
          ((xs.drop 5).take 10 ++ .write .readerLength 512 :: xs.drop 16) ∧ ¬ Drained ((xs.drop 5).take 10) := by
    decide +kernel
  obtain ⟨card, hcard, hresult⟩ := Driver.exists_of_returns hreturns
  obtain ⟨hsplit, hundrained⟩ := of_decide_eq_true hcard
  exact ⟨card, _, _, _, hresult, hsplit, hundrained⟩

end SecureDigital

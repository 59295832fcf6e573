import SecureDigital.Proofs.BringUp.Told

/-!
# The bring-up under the abort policy

`bringUp_aborts`: under the abort policy the first command outside the power-up loop that fails ends the
bring-up, at once and with an error that names it. The loop itself (`outsidePowerUp`) is exempt.
-/

namespace SecureDigital

open Launch

/-- Whether the command is one of the two that a round of the power-up loop sends. -/
def Exchange.powersUp (e : Exchange) : Bool := e.index = 55 ∨ e.index = 41

/-- The exchanges but for the power-up loop, which is the first block of APP_CMD and SD_SEND_OP_COND. -/
def outsidePowerUp (es : List Exchange) : List Exchange :=
  es.takeWhile (!·.powersUp) ++ (es.dropWhile (!·.powersUp)).dropWhile (·.powersUp)

section Course

variable {config : Config} {r : Except Halt (Except Error Card)} {xs : List Access} {es fs gs : List Exchange}

theorem outsidePowerUp_append (hes : ∀ e ∈ es, e.powersUp = false) (hfs : ∀ e ∈ fs, e.powersUp)
    (hgs : gs = [] ∨ fs ≠ [] ∧ ∀ e, gs.head? = some e → e.powersUp = false) :
    outsidePowerUp (es ++ fs ++ gs) = es ++ gs := by
  have hbefore : ∀ e ∈ es, (!e.powersUp) = true := fun e he => by rw [hes e he]; rfl
  rw [outsidePowerUp, List.append_assoc, List.takeWhile_append_of_pos hbefore, List.dropWhile_append_of_pos hbefore]
  rcases fs with _ | ⟨f, fs⟩
  · obtain rfl := hgs.resolve_right fun h => h.1 rfl
    simp
  have hf : (!f.powersUp) = false := by rw [hfs f List.mem_cons_self]; rfl
  have hloop : ((f :: fs) ++ gs).dropWhile (!·.powersUp) = (f :: fs) ++ gs := List.dropWhile_cons_of_neg (by simp [hf])
  have htake : ((f :: fs) ++ gs).takeWhile (!·.powersUp) = [] := List.takeWhile_cons_of_neg (by simp [hf])
  rw [htake, List.append_nil, hloop, List.dropWhile_append_of_pos hfs]
  rcases gs with _ | ⟨g, gs⟩
  · rfl
  · have hg := (hgs.resolve_left nofun).2 g rfl
    rw [List.dropWhile_cons_of_neg (by simp [hg])]

theorem Course.powersUp (h : Course config r xs es fs gs) : ∀ f ∈ fs, f.powersUp := by
  have hloop {k : Nat} {fs : List Exchange} (hrounds : ∀ l ∈ fs.map Exchange.launch, l ∈ powerUpRounds k) :
      ∀ f ∈ fs, f.powersUp :=
    fun f hf => decide_eq_true (index_of_mem_powerUpRounds (hrounds _ (List.mem_map_of_mem hf)))
  cases h with
  | inReset => exact nofun
  | inPowerUp _ _ hrounds => exact hloop fun _ hl => hrounds.subset hl
  | notReady _ _ hrounds => exact hloop fun _ hl => hrounds ▸ hl
  | poweredUp _ _ hrounds => exact hloop fun _ hl => hrounds ▸ hl

theorem Course.outsidePowerUp_eq (h : Course config r xs es fs gs) : outsidePowerUp (es ++ fs ++ gs) = es ++ gs := by
  have hbefore {es : List Exchange} (hreset : ∀ l ∈ es.map Exchange.launch, l ∈ resetScript) :
      ∀ e ∈ es, e.powersUp = false := by
    intro e he
    refine decide_eq_false fun hindex => ?_
    rcases index_of_mem_resetScript (hreset _ (List.mem_map_of_mem he)) with h | h <;>
      rw [show e.index = _ from h] at hindex <;> exact absurd hindex (by decide)
  have hloop := h.powersUp
  cases h with
  | inReset hreset =>
    exact outsidePowerUp_append (hbefore fun _ hl => hreset.launches_prefix_script.subset hl) hloop (.inl rfl)
  | inPowerUp hreset => exact outsidePowerUp_append (hbefore fun _ hl => hreset ▸ hl) hloop (.inl rfl)
  | notReady hreset => exact outsidePowerUp_append (hbefore fun _ hl => hreset ▸ hl) hloop (.inl rfl)
  | poweredUp hreset _ _ _ hrest =>
    refine outsidePowerUp_append (hbefore fun _ hl => hreset ▸ hl) hloop (.inr ⟨by simp, fun e he => ?_⟩)
    rcases gs with _ | ⟨g, gs⟩ <;> cases he
    have hlaunch := (List.cons_prefix_cons.1 hrest.launches_prefix_script).1
    have hindex : e.index = 2 := congrArg Launch.index hlaunch
    simp [Exchange.powersUp, hindex]

/-- The error of a failed command names the last command of the run, the first one to fail. -/
theorem Course.stepFailed {index : UInt8} {status : Status}
    (h : Course config (.ok (.error (.stepFailed index status))) xs es fs gs) :
    ∃ ps e, es ++ gs = ps ++ [e] ∧ (∀ f ∈ ps, f.status = .ok) ∧ e.status ≠ .ok ∧ e.Ended config ∧
      e.index = index ∧ e.status = status ∧ (es ++ fs ++ gs).getLast? = some e ∧ e.EndsAt xs := by
  cases h with
  | inReset hreset =>
    cases hreset with
    | @aborted _ ps e _ _ hpassed hfailed hended hlast =>
      exact ⟨ps, e, List.append_nil _, hpassed, hfailed, hended, rfl, rfl, by simp, hlast⟩
  | poweredUp _ hpassed _ _ hrest =>
    cases hrest with
    | @aborted _ ps e hpolicy _ hpassed' hfailed hended hlast =>
      refine ⟨es ++ ps, e, (List.append_assoc ..).symm, fun f hf => ?_, hfailed, hended, rfl, rfl, ?_, hlast⟩
      · exact (List.mem_append.1 hf).elim (hpassed hpolicy f) (hpassed' f)
      · rw [← List.append_assoc]
        exact List.getLast?_concat

/-- Without such an error no command outside the power-up loop has failed. -/
theorem Course.unfailed (hpolicy : config.stepPolicy = .abort) (h : Course config r xs es fs gs)
    (hr : ∀ index status, r ≠ .ok (.error (.stepFailed index status))) (haccepted : r ≠ .error .refused) :
    ∀ e ∈ es ++ gs, e.Ended config → e.status = .ok := by
  have hrest {script : List Launch} {Q : List Exchange → Card → Prop} {es : List Exchange}
      (hx : Conducted config script Q r xs es) : ∀ e ∈ es, e.Ended config → e.status = .ok := by
    cases hx with
    | completed _ hpassed => exact fun e he _ => hpassed hpolicy e he
    | aborted => exact absurd rfl (hr _ _)
    | halted _ hpassed => exact hpassed hpolicy fun hcause => haccepted (congrArg Except.error hcause)
  cases h with
  | inReset hreset => rw [List.append_nil]; exact hrest hreset
  | inPowerUp _ hpassed => rw [List.append_nil]; exact fun e he _ => hpassed hpolicy e he
  | notReady _ hpassed => rw [List.append_nil]; exact fun e he _ => hpassed hpolicy e he
  | poweredUp _ hpassed _ _ hx =>
    exact fun e he hended => (List.mem_append.1 he).elim (hpassed hpolicy e) (hrest hx e · hended)

theorem exists_published (hany : es.any (·.passed 3)) (hall : ∀ e ∈ es, e.index = 3 → e.status = .ok) :
    ∃ e ∈ es, e.index = 3 ∧ e.status = .ok ∧ publishedAddress es = (e.responseWord 3 >>> 16).toUInt16 := by
  cases hfind : es.find? (·.index = 3) with
  | none =>
    obtain ⟨e, he, hpassed⟩ := List.any_eq_true.1 hany
    exact absurd (of_decide_eq_true hpassed).1 (by simpa using List.find?_eq_none.1 hfind e he)
  | some e =>
    have he := List.mem_of_find?_eq_some hfind
    have hindex : e.index = 3 := by simpa using List.find?_some hfind
    have hok := hall e he hindex
    refine ⟨e, he, hindex, hok, ?_⟩
    rw [publishedAddress, hfind, Option.bind_some, Exchange.onSuccess, if_pos hok, Option.getD_some]

end Course

variable {σ : Type} [Device σ]

theorem bringUp_aborts {config : Config} (hpolicy : config.stepPolicy = .abort)
    {r : Except Halt (Except Error Card)} {xs : List Access}
    (h : (Card.bringUp config : Fallible σ Card).run.Runs r xs) :
    ((∃ index status, r = .ok (.error (.stepFailed index status))) ↔
        r ≠ .error .refused ∧ ∃ e ∈ outsidePowerUp (exchanges xs), e.Ended config ∧ e.status ≠ .ok) ∧
      (∀ index status, r = .ok (.error (.stepFailed index status)) →
        ∃ e, (outsidePowerUp (exchanges xs)).find? (·.status ≠ .ok) = some e ∧ e.index = index ∧
          e.status = status ∧ (exchanges xs).getLast? = some e ∧ e.EndsAt xs) ∧
      ∀ card, r = .ok (.ok card) → (∀ e ∈ outsidePowerUp (exchanges xs), e.status = .ok) ∧
        (∃ e ∈ exchanges xs, e.index = 3 ∧ e.status = .ok ∧ card.session.rca = (e.responseWord 3 >>> 16).toUInt16) ∧
        (card.session.state = .transfer .sdr12 ∨ card.session.state = .transfer config.accessMode) := by
  obtain ⟨es, fs, gs, hxs, hcourse⟩ := exists_course h
  rw [hxs, hcourse.outsidePowerUp_eq]
  refine ⟨⟨?_, ?_⟩, ?_, ?_⟩
  · rintro ⟨index, status, rfl⟩
    obtain ⟨ps, e, hes, -, hfailed, hended, -⟩ := hcourse.stepFailed
    exact ⟨nofun, e, by simp [hes], hended, hfailed⟩
  · rintro ⟨haccepted, e, he, hended, hfailed⟩
    refine Classical.byContradiction fun hr => hfailed ?_
    exact hcourse.unfailed hpolicy (fun index status h => hr ⟨index, status, h⟩) haccepted e he hended
  · rintro index status rfl
    obtain ⟨ps, e, hes, hpassed, hfailed, -, hindex, hstatus, hlast, hends⟩ := hcourse.stepFailed
    refine ⟨e, ?_, hindex, hstatus, hlast, hends⟩
    have hnone : ps.find? (·.status ≠ .ok) = none := List.find?_eq_none.2 fun f hf => by simpa using hpassed f hf
    rw [hes, List.find?_append, hnone, Option.none_or]
    simp [hfailed]
  · rintro card rfl
    obtain ⟨_, -, hpassed⟩ := hcourse.completed
    obtain ⟨hes, hgs⟩ := hpassed hpolicy
    obtain ⟨hrca, hselect⟩ := hcourse.passed_of_abort hpolicy
    refine ⟨fun e he => (List.mem_append.1 he).elim (hes e) (hgs e), ?_, ?_⟩
    · rw [hcourse.toldBy.rca]
      refine exists_published hrca fun e he hindex => ?_
      rcases List.mem_append.1 he with he | he
      · rcases List.mem_append.1 he with he | he
        · exact hes e he
        · rcases of_decide_eq_true (hcourse.powersUp e he) with h | h <;>
            rw [h] at hindex <;> exact absurd hindex (by decide)
      · exact hgs e he
    · rw [hcourse.toldBy.state, CardState.told, if_pos hselect]
      split
      · exact .inr rfl
      · exact .inl rfl

theorem bringUp_aborts_selection :
    let o := (Card.bringUp { stepPolicy := .abort }).run.run (Scripted.willingBut [1, 1, 1, 1, 1, 1, 1, 1, 9]) 3000
    o.result = .ok (.error (.stepFailed 7 .crcError)) ∧
      ∃ e, (exchanges o.accesses).getLast? = some e ∧ e.index = 7 ∧ e.status = .crcError ∧ e.EndsAt o.accesses := by
  have hfails : Driver.fails (Card.bringUp { stepPolicy := .abort })
      (Scripted.willingBut [1, 1, 1, 1, 1, 1, 1, 1, 9]) 3000 (.stepFailed 7 .crcError) := by decide +kernel
  have hresult := Driver.eq_of_fails hfails
  obtain ⟨-, hreport, -⟩ := bringUp_aborts (by rfl) ⟨_, _, hresult, rfl⟩
  obtain ⟨e, -, hindex, hstatus, hlast, hends⟩ := hreport 7 .crcError rfl
  exact ⟨hresult, e, hlast, hindex, hstatus, hends⟩

end SecureDigital

import SecureDigital.Proofs.BringUp.Told

/-!
# What ends the power-up loop

The loop looks at the response word of SD_SEND_OP_COND and not at its status. It ends with the first word
that has the power-up bit, which the card's info keeps (`bringUp_ended_by_ready`). A command that failed
fills the response as well, with whatever the buffer holds: such a word ends the loop like any other
(`powered_up_by_timeout`). The loop ends with a command that passed only where no failed command finds the
bit set.
-/

namespace SecureDigital

open Launch

theorem index_of_lastOf {index : UInt8} {es : List Exchange} {e : Exchange} (h : lastOf index es = some e) :
    e.index = index := by
  rw [lastOf, List.findRev?_eq_find?_reverse] at h
  have his : e.is index := List.find?_some h
  exact of_decide_eq_true his

section Script

variable {config : Config} {xs : List Access} {es fs gs : List Exchange}

theorem Course.ended_by_ready {card : Card} (h : Course config (.ok (.ok card)) xs es fs gs) :
    ∃ e, (es ++ fs ++ gs).find? (·.ready) = some e ∧ lastOf 41 (es ++ fs ++ gs) = some e := by
  cases h with
  | inReset hreset =>
    cases hreset with
    | completed _ _ hfalse => exact hfalse.elim
  | @poweredUp k _ _ _ fs _ e hreset _ hrounds hbit hrest hidle =>
    cases hrest with
    | completed hscript _ _ =>
      have hlast : lastOf 41 (es ++ (fs ++ [e]) ++ gs) = some e := lastOf_sendOpCond hrounds hscript
      have hready : e.ready := decide_eq_true ⟨index_of_lastOf hlast, hbit⟩
      -- No exchange before `e` is ready: the reset has no SD_SEND_OP_COND, and every round before was idle.
      have hfront : (es ++ fs).find? (·.ready) = none := by
        refine List.find?_eq_none.2 fun f hf => ?_
        rcases List.mem_append.1 hf with hf | hf
        · refine Exchange.not_ready fun h41 => ?_
          rcases index_of_mem_resetScript (hreset ▸ List.mem_map_of_mem hf) with h | h <;>
            exact absurd (h41.symm.trans h) (by decide)
        · exact hidle f hf
      refine ⟨e, ?_, hlast⟩
      rw [← List.append_assoc, List.append_assoc, List.find?_append, hfront]
      simp [hready]

end Script

variable {σ : Type} [Device σ]

theorem bringUp_ended_by_ready {config : Config} {card : Card} {xs : List Access}
    (h : (Card.bringUp config : Fallible σ Card).run.Runs (.ok (.ok card)) xs) :
    ∃ e, (exchanges xs).find? (·.ready) = some e ∧ lastOf 41 (exchanges xs) = some e ∧
      card.info.ocr = e.responseWord 3 ∧ card.info.highCapacity = testBit (e.responseWord 3) 30 ∧
      ((∀ f ∈ exchanges xs, f.ready → f.status = .ok) → e.status = .ok) := by
  obtain ⟨es, fs, gs, hxs, hcourse⟩ := exists_course h
  obtain ⟨e, hfirst, hlast⟩ := hcourse.ended_by_ready
  have htold := hcourse.toldBy
  rw [← hxs] at hfirst hlast htold
  have hocr : card.info.ocr = e.responseWord 3 := by
    have hsome := htold.ocr
    rw [hlast] at hsome
    exact Option.some.inj hsome
  refine ⟨e, hfirst, hlast, hocr, hocr ▸ htold.highCapacity, fun hhonest => ?_⟩
  exact hhonest e (List.mem_of_find?_eq_some hfirst) (List.find?_some hfirst)

theorem bringUp_ended_by_ready_willing :
    let o := (Card.bringUp {}).run.run Scripted.willing 3000
    ∃ card e, o.result = .ok (.ok card) ∧ (exchanges o.accesses).find? (·.ready) = some e ∧ e.status = .ok ∧
      card.info.ocr = e.responseWord 3 := by
  have hreturns : Driver.returns (Card.bringUp {}) Scripted.willing 3000 fun _ => true := by decide +kernel
  obtain ⟨card, -, hresult⟩ := Driver.exists_of_returns hreturns
  obtain ⟨e, hfirst, -, hocr, -, hstatus⟩ := bringUp_ended_by_ready ⟨_, _, hresult, rfl⟩
  exact ⟨card, e, hresult, hfirst, hstatus (by decide +kernel), hocr⟩

/-- The answer of the command before ends the loop when SD_SEND_OP_COND itself has timed out. -/
theorem powered_up_by_timeout :
    let o := (Card.bringUp { ocrAttempts := .attempts 1 }).run.run (Scripted.willingBut [1, 1, 1, 5]) 3000
    ∃ card e, o.result = .ok (.ok card) ∧ lastOf 41 (exchanges o.accesses) = some e ∧ e.status = .timeout ∧
      card.info.ocr = e.responseWord 3 ∧ card.info.ocr = 0xC0FF8000 ∧ card.info.highCapacity := by
  have hreturns : Driver.returns (Card.bringUp { ocrAttempts := .attempts 1 }) (Scripted.willingBut [1, 1, 1, 5]) 3000
      fun card => card.info.ocr = 0xC0FF8000 ∧ card.info.highCapacity := by decide +kernel
  obtain ⟨card, hcard, hresult⟩ := Driver.exists_of_returns hreturns
  obtain ⟨hocr, hcapacity⟩ := of_decide_eq_true hcard
  have hlast : (lastOf 41 (exchanges ((Card.bringUp { ocrAttempts := .attempts 1 }).run.run
      (Scripted.willingBut [1, 1, 1, 5]) 3000).accesses)).any fun e => e.status = .timeout ∧ e.responseWord 3 = 0xC0FF8000 := by decide +kernel
  obtain ⟨e, he, hfailed⟩ := (Option.any_eq_true _ _).1 hlast
  obtain ⟨hstatus, hshort⟩ := of_decide_eq_true hfailed
  exact ⟨card, e, hresult, he, hstatus, hocr.trans hshort.symm, hocr, hcapacity⟩

end SecureDigital

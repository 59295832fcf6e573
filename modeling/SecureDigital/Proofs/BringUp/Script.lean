import SecureDigital.Device.Scripted
import SecureDigital.Proofs.BringUp.Course

/-!
# The command script of the bring-up

Whatever the device does, the commands that a bring-up launches follow one script: only the number of
rounds in the power-up loop, the scratch buffer and the published address vary.
-/

namespace SecureDigital

open Launch

/-- The script of a bring-up with `rounds` rounds in the power-up loop. -/
def Launch.bringUpScript (config : Config) (rounds : Nat) (address : UInt32) : List Launch :=
  resetScript ++ powerUpRounds rounds ++ (identifyScript ++ addressedScript config address)

theorem Launch.length_bringUpScript (config : Config) (rounds : Nat) (address : UInt32) :
    (bringUpScript config rounds address).length = 2 * rounds + if config.scratchAddress.isSome then 14 else 10 := by
  simp only [bringUpScript, resetScript, identifyScript, addressedScript, List.length_append, length_powerUpRounds]
  split <;> simp <;> omega

theorem Launch.index_of_mem_resetScript {l : Launch} (h : l ∈ resetScript) : l.index = 0 ∨ l.index = 8 := by
  simp only [resetScript, List.mem_cons, List.not_mem_nil, or_false] at h
  exact h.imp (congrArg Launch.index) (congrArg Launch.index)

section Front

variable {es fs gs : List Exchange}

theorem index_of_front {k : Nat} (hreset : es.map Exchange.launch = resetScript)
    (hrounds : fs.map Exchange.launch = powerUpRounds k) {e : Exchange} (he : e ∈ es ++ fs) :
    e.index ∈ [0, 8, 55, 41] := by
  rcases List.mem_append.1 he with he | he
  · have hl : e.launch ∈ resetScript := hreset ▸ List.mem_map_of_mem he
    rcases index_of_mem_resetScript hl with h | h <;> rw [show e.index = _ from h] <;> decide
  · have hl : e.launch ∈ powerUpRounds k := hrounds ▸ List.mem_map_of_mem he
    rcases index_of_mem_powerUpRounds hl with h | h <;> rw [show e.index = _ from h] <;> decide

theorem publishedAddress_append (h : ∀ e ∈ es, e.index ≠ 3) :
    publishedAddress (es ++ gs) = publishedAddress gs := by
  have hnone : es.find? (·.index = 3) = none := List.find?_eq_none.2 fun e he => by simpa using h e he
  rw [publishedAddress, List.find?_append, hnone, Option.none_or]
  rfl

/-- The card publishes its address after the power-up loop. -/
theorem publishedAddress_front {k : Nat} (hreset : es.map Exchange.launch = resetScript)
    (hrounds : fs.map Exchange.launch = powerUpRounds k) :
    publishedAddress (es ++ fs ++ gs) = publishedAddress gs := by
  refine publishedAddress_append fun e he hindex => ?_
  have hmem := index_of_front hreset hrounds he
  rw [hindex] at hmem
  exact absurd hmem (by decide)

end Front

variable {σ : Type} [Device σ]

theorem bringUp_follows_script {config : Config} {r : Except Error Card} {xs : List Access}
    (h : (Card.bringUp config : Fallible σ Card).run.Runs (.ok r) xs) :
    ∃ k, launches xs <+: bringUpScript config k (publishedArgument (exchanges xs)) ∧
      (∀ card, r = .ok card → launches xs = bringUpScript config k (publishedArgument (exchanges xs))) ∧
      (config.stepPolicy = .proceed → ∀ e, r = .error e →
        e = .cardNotReady ∧ launches xs = resetScript ++ powerUpRounds k) := by
  obtain ⟨es, fs, gs, hxs, hcourse⟩ := exists_course h
  rw [launches, hxs]
  cases hcourse with
  | inReset hreset =>
    rcases hreset with ⟨-, -, ⟨⟩⟩ | ⟨hpolicy, hscript, -⟩ | _
    refine ⟨0, ?_, fun _ hr => ?_, fun hproceed => absurd (hpolicy.symm.trans hproceed) nofun⟩
    · rw [List.append_nil, List.append_nil, bringUpScript, List.append_assoc]
      exact hscript.trans (List.prefix_append _ _)
    · cases hr
  | @notReady k _ _ _ hreset _ hrounds =>
    rw [List.append_nil, List.map_append, hreset, hrounds]
    refine ⟨k, by rw [bringUpScript]; exact List.prefix_append _ _, fun _ hr => ?_, fun _ e he => ?_⟩
    · cases hr
    · cases he
      exact ⟨rfl, rfl⟩
  | @poweredUp k _ _ _ fs _ e hreset _ hrounds _ hrest =>
    rw [publishedArgument, publishedAddress_front hreset hrounds, List.map_append, List.map_append, hreset, hrounds,
      ← publishedArgument]
    refine ⟨k + 1, ?_⟩
    rw [bringUpScript]
    rcases hrest with ⟨hscript, -, hcard⟩ | ⟨hpolicy, hscript, -⟩ | _
    · rw [hscript]
      refine ⟨List.prefix_rfl, fun _ _ => rfl, fun _ _ he => ?_⟩
      cases he
    · refine ⟨(List.prefix_append_right_inj _).2 hscript, fun _ hr => ?_, fun hproceed => ?_⟩
      · cases hr
      · exact absurd (hpolicy.symm.trans hproceed) nofun

namespace Scripted

/-- A card that answers every command at once, publishes the address 0xC0FF and takes SDR25. -/
def willing : Scripted :=
  { otherwise :=
      { response := #v[0, 0, 0, 0xC0FF8000], delivery := some ((Array.replicate 64 0).setIfInBounds 16 1) } }

/-- The same card, but the first commands end with the given events. -/
def willingBut (events : List UInt32) : Scripted :=
  { willing with commands := events.map fun event => { willing.otherwise with cmdEvents := [event] } }

end Scripted

theorem bringUp_follows_script_willing :
    let o := (Card.bringUp { scratchAddress := some 0x100 }).run.run Scripted.willing 3000
    ∃ card k, o.result = .ok (.ok card) ∧
      launches o.accesses =
        bringUpScript { scratchAddress := some 0x100 } k (publishedArgument (exchanges o.accesses)) ∧
      launches o.accesses = [⟨0, 0⟩, ⟨8, 0x1AA⟩, ⟨55, 0⟩, ⟨41, 0x70FF8000⟩, ⟨2, 0⟩, ⟨3, 0⟩, ⟨10, 0xC0FF0000⟩,
        ⟨9, 0xC0FF0000⟩, ⟨7, 0xC0FF0000⟩, ⟨55, 0xC0FF0000⟩, ⟨6, 2⟩, ⟨6, 0x80FFFFF1⟩, ⟨6, 0x80FFF3FF⟩,
        ⟨55, 0xC0FF0000⟩, ⟨51, 0⟩, ⟨16, 512⟩] := by
  intro o
  have hreturns : Driver.returns (Card.bringUp { scratchAddress := some 0x100 }) Scripted.willing 3000
      fun _ => true := by decide +kernel
  obtain ⟨card, -, hresult⟩ := Driver.exists_of_returns hreturns
  obtain ⟨k, -, hscript, -⟩ := bringUp_follows_script ⟨_, _, hresult, rfl⟩
  have hlaunches := hscript card rfl
  have haddress : publishedArgument (exchanges o.accesses) = 0xC0FF0000 := by decide +kernel
  have hlength : (launches o.accesses).length = 16 := by decide +kernel
  have hround : k = 1 := by
    rw [hlaunches, length_bringUpScript] at hlength
    simp only [Option.isSome_some, if_true] at hlength
    omega
  refine ⟨card, k, hresult, hlaunches, hlaunches.trans ?_⟩
  rw [haddress, hround]
  decide

end SecureDigital

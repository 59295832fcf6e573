import SecureDigital.Console

/-!
# A second installation

`Console.install` sets the sink before it finds the console installed, so an installation that fails still turns the
lines to its own sink. That is all it does: the level, the time stamps and the texts of the records stay those of the
console without the call, and the next installation sets the sink in both (`failed_install_redirects`).

What is done to a console between two installations is `Unseeing`: it looks neither at the sink nor at the lines there
are. A sink does show in the records it logs itself, so sinks are compared that log the same ones.
-/

namespace SecureDigital.Console

/-- What is asked of a console from outside. -/
inductive Call
  | install (sink : Sink)
  | setFilter (filter : Filter)
  | setTicker (ticker : Ticker)
  | record (record : Record)

def Call.isInstall : Call → Bool
  | install _ => true
  | _ => false

def perform (c : Console) : Call → Console
  | .install sink => (c.install sink).2
  | .setFilter filter => c.setFilter filter
  | .setTicker ticker => c.setTicker ticker
  | .record record => c.record record

def performs (c : Console) (calls : List Call) : Console := calls.foldl perform c

/-- The console `c`, but for what it has printed. -/
def withLines (c : Console) (lines : List String) : Console := { c with lines := lines }

/-- The console `c`, but for its sink and for what it has printed. -/
def writingTo (c : Console) (sink : Sink) (lines : List String) : Console := { c with sink := some sink, lines := lines }

variable {c : Console} {sink : Sink} {lines : List String} {P : Sink → Prop}

@[simp] theorem performs_cons (c : Console) (call : Call) (calls : List Call) :
    c.performs (call :: calls) = (c.perform call).performs calls := rfl

theorem performs_append (c : Console) (calls more : List Call) :
    c.performs (calls ++ more) = (c.performs calls).performs more := List.foldl_append

theorem writingTo_self (h : c.sink = some sink) : c.writingTo sink c.lines = c := by
  rw [writingTo, ← h]

theorem withLines_eq_writingTo (h : c.sink = some sink) (lines : List String) :
    c.withLines lines = c.writingTo sink lines := by
  rw [withLines, writingTo, ← h]

@[simp] theorem print_writingTo (text : String) :
    (c.writingTo sink lines).print text = c.writingTo sink (lines ++ [text]) := rfl

/-! ### Between two installations -/

/-- Up to the mark before the lines, `f` does the same on every sink that has `P` and after any lines. -/
def Unseeing (P : Sink → Prop) (f : Console → Console) : Prop :=
  ∀ c : Console, ∃ (c' : Console) (texts : List String), ∀ sink lines, P sink →
    f (c.writingTo sink lines) = c'.writingTo sink (lines ++ texts.map (sink.mark ++ ·))

theorem Unseeing.id : Unseeing P fun c => c := by
  intro c
  exact ⟨c, [], fun _ lines _ => by simp⟩

theorem Unseeing.comp {f g : Console → Console} (hg : Unseeing P g) (hf : Unseeing P f) : Unseeing P fun c => g (f c) := by
  intro c
  obtain ⟨c₁, texts₁, h₁⟩ := hf c
  obtain ⟨c₂, texts₂, h₂⟩ := hg c₁
  refine ⟨c₂, texts₁ ++ texts₂, fun sink lines hsink => ?_⟩
  simp only [h₁ sink lines hsink, h₂ sink _ hsink, List.map_append, List.append_assoc]

theorem Unseeing.foldl {β : Type} {f : Console → β → Console} {xs : List β} (h : ∀ x ∈ xs, Unseeing P (f · x)) :
    Unseeing P (xs.foldl f ·) := by
  induction xs with
  | nil => exact id
  | cons x xs ih => exact comp (ih fun y hy => h y (List.mem_cons_of_mem x hy)) (h x List.mem_cons_self)

/-- What `emit interjections` does between the stamp and the line of a record. -/
def interject : List (List Record) → Console → Console
  | [], c => c
  | first :: deeper, c => first.foldl (emit deeper) c

theorem emit_writingTo (interjections : List (List Record)) (r : Record) :
    emit interjections (c.writingTo sink lines) r = if c.enabled r.level then
      (interject interjections (c.draw.2.writingTo sink lines)).print (sink.mark ++ line c.draw.1 r)
    else c.writingTo sink lines := by
  obtain ⟨installed, _, ticker, filter, _⟩ := c
  cases interjections <;> cases ticker <;> rfl

theorem unseeing_emit {interjections : List (List Record)} (h : Unseeing P (interject interjections)) (r : Record) :
    Unseeing P (emit interjections · r) := by
  intro c
  by_cases henabled : c.enabled r.level
  · obtain ⟨c', texts, h⟩ := h c.draw.2
    refine ⟨c', texts ++ [line c.draw.1 r], fun sink lines hsink => ?_⟩
    simp only [emit_writingTo, if_pos henabled, h sink lines hsink, print_writingTo, List.map_append, List.map_cons,
      List.map_nil, List.append_assoc]
  · exact ⟨c, [], fun sink lines _ => by simp [emit_writingTo, henabled]⟩

/-- The records a sink logs on the way are known before it is looked at. -/
theorem unseeing_interject (interjections : List (List Record)) : Unseeing P (interject interjections) := by
  induction interjections with
  | nil => exact Unseeing.id
  | cons first deeper ih => exact Unseeing.foldl fun r _ => unseeing_emit ih r

theorem unseeing_record (interjections : List (List Record)) (r : Record) :
    Unseeing (·.interjections = interjections) (record · r) := by
  intro c
  obtain ⟨c', texts, h⟩ := unseeing_emit (P := (·.interjections = interjections)) (unseeing_interject interjections) r c
  refine ⟨c', texts, fun sink lines hsink => ?_⟩
  rw [← h sink lines hsink, ← hsink]
  rfl

theorem unseeing_perform {call : Call} (h : call.isInstall = false) (interjections : List (List Record)) :
    Unseeing (·.interjections = interjections) (perform · call) := by
  have hsilent : ∀ f : Console → Console, (∀ c sink lines, f (writingTo c sink lines) = (f c).writingTo sink lines) →
      Unseeing (·.interjections = interjections) f :=
    fun f h c => ⟨f c, [], fun sink lines _ => by rw [h, List.map_nil, List.append_nil]⟩
  cases call with
  | install => cases h
  | setFilter filter => exact hsilent (setFilter · filter) fun _ _ _ => rfl
  | setTicker ticker => exact hsilent (setTicker · ticker) fun _ _ _ => rfl
  | record r => exact unseeing_record interjections r

theorem unseeing_performs {calls : List Call} (h : ∀ call ∈ calls, call.isInstall = false)
    (interjections : List (List Record)) : Unseeing (·.interjections = interjections) (performs · calls) :=
  Unseeing.foldl fun call hcall => unseeing_perform (h call hcall) interjections

/-! ### Across installations -/

/-- A console never looks at what it has printed. -/
theorem exists_perform_withLines (c : Console) (call : Call) :
    ∃ (c' : Console) (texts : List String), ∀ lines, (c.withLines lines).perform call = c'.withLines (lines ++ texts) := by
  have hsilent : ∀ f : Console → Console, (∀ lines, f (c.withLines lines) = (f c).withLines lines) →
      ∃ (c' : Console) (texts : List String), ∀ lines, f (c.withLines lines) = c'.withLines (lines ++ texts) :=
    fun f h => ⟨f c, [], fun lines => by rw [h, List.append_nil]⟩
  cases call with
  | install sink =>
    refine hsilent (fun c => (c.install sink).2) fun lines => ?_
    obtain ⟨installed, _, _, _, _⟩ := c
    cases installed <;> rfl
  | setFilter filter => exact hsilent (setFilter · filter) fun _ => rfl
  | setTicker ticker => exact hsilent (setTicker · ticker) fun _ => rfl
  | record r =>
    cases hsink : c.sink with
    | none =>
      have hrecord : ∀ c : Console, c.sink = none → c.record r = c := fun c h => by simp only [record, h]
      exact hsilent (record · r) fun lines => by rw [hrecord c hsink, hrecord (c.withLines lines) hsink]
    | some sink =>
      obtain ⟨c', texts, h⟩ := unseeing_record sink.interjections r c
      refine ⟨c'.writingTo sink [], texts.map (sink.mark ++ ·), fun lines => ?_⟩
      rw [withLines_eq_writingTo hsink]
      exact h sink lines rfl

theorem exists_performs_withLines (c : Console) (calls : List Call) :
    ∃ (c' : Console) (texts : List String), ∀ lines, (c.withLines lines).performs calls = c'.withLines (lines ++ texts) := by
  induction calls generalizing c with
  | nil => exact ⟨c, [], fun lines => by rw [List.append_nil]; rfl⟩
  | cons call calls ih =>
    obtain ⟨c₁, texts₁, h₁⟩ := exists_perform_withLines c call
    obtain ⟨c₂, texts₂, h₂⟩ := ih c₁
    exact ⟨c₂, texts₁ ++ texts₂, fun lines => by rw [performs_cons, h₁, h₂, List.append_assoc]⟩

theorem perform_install (hinstalled : c.installed) (sink : Sink) :
    c.perform (.install sink) = c.writingTo sink c.lines := by
  simp [perform, install, writingTo, hinstalled]

theorem installed_of_install_fails (h : (c.install sink).1 = .error .alreadyInstalled) : c.installed := by
  cases hinstalled : c.installed with
  | true => rfl
  | false => simp [install, hinstalled] at h

/-- After an installation the sink there was is forgotten. -/
theorem exists_install_writingTo (c : Console) (next : Sink) :
    ∃ c' : Console, ∀ sink lines, (c.writingTo sink lines).perform (.install next) = c'.writingTo next lines := by
  obtain ⟨installed, sink, ticker, filter, lines⟩ := c
  cases installed with
  | true => exact ⟨⟨true, sink, ticker, filter, lines⟩, fun _ _ => rfl⟩
  | false => exact ⟨⟨true, sink, ticker, some .debug, lines⟩, fun _ _ => rfl⟩

/-- An installed console has a sink. -/
theorem sink_isSome_perform (h : c.installed → c.sink.isSome) (call : Call) :
    (c.perform call).installed → (c.perform call).sink.isSome := by
  cases call with
  | install sink =>
    obtain ⟨installed, _, _, _, _⟩ := c
    cases installed <;> exact fun _ => rfl
  | setFilter => exact h
  | setTicker => exact h
  | record r =>
    cases hsink : c.sink with
    | none =>
      have hrecord : c.perform (.record r) = c := by simp only [perform, record, hsink]
      rwa [hrecord]
    | some sink =>
      obtain ⟨c', texts, hc'⟩ := unseeing_record sink.interjections r c
      have hrecord : c.perform (.record r) = _ := writingTo_self hsink ▸ hc' sink c.lines rfl
      rw [hrecord]
      exact fun _ => rfl

theorem sink_isSome_performs (h : c.installed → c.sink.isSome) (calls : List Call) :
    (c.performs calls).installed → (c.performs calls).sink.isSome := by
  induction calls generalizing c with
  | nil => exact h
  | cons call calls ih => exact ih (sink_isSome_perform h call)

/-- An installation that fails turns the lines to its sink and does nothing else: where the two sinks log the same records
themselves, the console with the call and the one without it print the same texts, each with the mark of its own sink, and
from the next installation on the same lines. -/
theorem failed_install_redirects {before : List Call} (hc : absent.performs before = c)
    (hfails : (c.install sink).1 = .error .alreadyInstalled) :
    ∃ old, c.sink = some old ∧ c.perform (.install sink) = c.writingTo sink c.lines ∧
      (old.interjections = sink.interjections → ∀ between : List Call, (∀ call ∈ between, call.isInstall = false) →
        ∃ (c' : Console) (texts : List String),
          c.performs between = c'.writingTo old (c.lines ++ texts.map (old.mark ++ ·)) ∧
          c.performs (.install sink :: between) = c'.writingTo sink (c.lines ++ texts.map (sink.mark ++ ·)) ∧
          ∀ (next : Sink) (after : List Call), ∃ (c'' : Console) (rest : List String),
            c.performs (between ++ .install next :: after) =
              c''.withLines (c.lines ++ texts.map (old.mark ++ ·) ++ rest) ∧
            c.performs (.install sink :: between ++ .install next :: after) =
              c''.withLines (c.lines ++ texts.map (sink.mark ++ ·) ++ rest)) := by
  have hinstalled := installed_of_install_fails hfails
  have habsent : absent.installed → absent.sink.isSome := nofun
  have hsome : c.sink.isSome := hc ▸ sink_isSome_performs habsent before (hc ▸ hinstalled)
  obtain ⟨old, hold⟩ := Option.isSome_iff_exists.mp hsome
  refine ⟨old, hold, perform_install hinstalled sink, fun hsame between hbetween => ?_⟩
  obtain ⟨c', texts, hrun⟩ := unseeing_performs hbetween sink.interjections c
  have hwithout : c.performs between = _ := writingTo_self hold ▸ hrun old c.lines hsame
  have hwith : c.performs (.install sink :: between) = _ :=
    (congrArg (performs · between) (perform_install hinstalled sink)).trans (hrun sink c.lines rfl)
  refine ⟨c', texts, hwithout, hwith, fun next after => ?_⟩
  obtain ⟨d, hd⟩ := exists_install_writingTo c' next
  obtain ⟨c'', rest, hafter⟩ := exists_performs_withLines (d.writingTo next []) after
  refine ⟨c'', rest, ?_, ?_⟩
  · rw [performs_append, hwithout, performs_cons, hd]
    exact hafter _
  · rw [performs_append, hwith, performs_cons, hd]
    exact hafter _

theorem failed_install_redirects_marked :
    let c := absent.performs [.install ⟨"", []⟩]
    (c.install ⟨"B:", []⟩).1 = .error .alreadyInstalled ∧ ∃ (c' : Console) (text : String),
      c.performs [.setTicker ⟨42, 1⟩, .record ⟨.info, "x"⟩] = c'.writingTo ⟨"", []⟩ ["" ++ text] ∧
      c.performs [.install ⟨"B:", []⟩, .setTicker ⟨42, 1⟩, .record ⟨.info, "x"⟩] =
        c'.writingTo ⟨"B:", []⟩ ["B:" ++ text] := by
  intro c
  have hc : absent.performs [.install ⟨"", []⟩] = c := rfl
  have hfails : (c.install ⟨"B:", []⟩).1 = .error .alreadyInstalled := rfl
  obtain ⟨old, hold, -, hrun⟩ := failed_install_redirects hc hfails
  obtain rfl : ⟨"", []⟩ = old := Option.some.inj hold
  obtain ⟨c', texts, hwithout, hwith, -⟩ :=
    hrun rfl [.setTicker ⟨42, 1⟩, .record ⟨.info, "x"⟩] (by simp [Call.isInstall])
  obtain ⟨text, rfl⟩ : ∃ text, texts = [text] := by
    have hlength : 1 = (texts.map ("" ++ ·)).length := congrArg (·.lines.length) hwithout
    rw [List.length_map] at hlength
    exact List.length_eq_one_iff.mp hlength.symm
  exact ⟨hfails, c', text, hwithout, hwith⟩

/-- The same record, without a failed installation before it and with one. -/
theorem failed_install_moves_record :
    let c := absent.performs [.install ⟨"", []⟩]
    (c.install ⟨"B:", []⟩).1 = .error .alreadyInstalled ∧
      (c.performs [.record ⟨.info, "x"⟩]).lines = ["[         0] [\x1b[32mINFO\x1b[0m ] x\n"] ∧
      (c.performs [.install ⟨"B:", []⟩, .record ⟨.info, "x"⟩]).lines =
        ["B:[         0] [\x1b[32mINFO\x1b[0m ] x\n"] := by
  refine ⟨rfl, ?_, ?_⟩ <;> decide +kernel

end SecureDigital.Console

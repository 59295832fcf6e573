import SecureDigital.Proofs.BringUp.Script
import SecureDigital.Slot

/-!
# What a slot holds after a history of calls

A history is a list of calls: a `fill` brings a card up behind some device, a `Use` works on the card that is kept. The
last `fill` alone decides what the slot holds (`performs_follows_last_fill`): nothing if it has failed, and else the card
that it brought up, as the uses since have left it. Those are run on the card itself by `Card.serve`, which knows of no
slot.
-/

namespace SecureDigital

/-- What is done with the kept card. -/
inductive Slot.Use (σ α : Type)
  | withCard (f : Card → Driver σ (α × Card))
  | readBlock (block dest : UInt32)
  | writeBlock (block src : UInt32)

/-- Each `fill` may be over a device of its own: `connect` leads from the device there was to that one. -/
inductive Slot.Call (σ α : Type)
  | fill (connect : σ → σ) (base : UInt32) (config : Config)
  | use (use : Slot.Use σ α)

/-- What a call answers: `withCard` with what its program yields, the others with no value. -/
abbrev Slot.Answer (α : Type) : Type := Except Error (Option α)

section Runs

variable {σ α : Type} [Device σ]

def Driver.connect (f : σ → σ) : Driver σ Unit := fun s b => ⟨.ok (), f s, b, [], []⟩

namespace Slot

def perform (slot : Slot) : Call σ α → Driver σ (Answer α × Slot)
  | .fill connect base config => do
    Driver.connect connect
    let (result, slot) ← fill base config
    return (result.map fun _ => none, slot)
  | .use (.withCard f) => do
    let (result, slot) ← slot.withCard f
    return (result.map some, slot)
  | .use (.readBlock block dest) => return ((← slot.readBlock block dest).map fun _ => none, slot)
  | .use (.writeBlock block src) => return ((← slot.writeBlock block src).map fun _ => none, slot)

def performs : Slot → List (Call σ α) → Driver σ (List (Answer α) × Slot)
  | slot, [] => return ([], slot)
  | slot, call :: calls => do
    let (answer, slot) ← slot.perform call
    let (answers, slot) ← slot.performs calls
    return (answer :: answers, slot)

end Slot

namespace Card

/-- A use of the card at hand. -/
def serve (card : Card) : Slot.Use σ α → Driver σ (Slot.Answer α × Card)
  | .withCard f => do
    let (a, card) ← f card
    return (.ok (some a), card)
  | .readBlock block dest => do
    Driver.note (.slotRead block)
    return (((← card.readBlock block dest).check .data).map fun _ => none, card)
  | .writeBlock block src => do
    Driver.note (.slotWrite block)
    return (((← card.writeBlock block src).check .data).map fun _ => none, card)

def serves : Card → List (Slot.Use σ α) → Driver σ (List (Slot.Answer α) × Card)
  | card, [] => return ([], card)
  | card, use :: uses => do
    let (answer, card) ← card.serve use
    let (answers, card) ← card.serves uses
    return (answer :: answers, card)

end Card

end Runs

/-- From the state `s` and with the budget `b`, `m` returns `a`, leaves the state `s'` and the budget `b'`, and makes the
accesses `xs`. -/
def Driver.Leads {σ α : Type} (m : Driver σ α) (s : σ) (b : Nat) (a : α) (s' : σ) (b' : Nat) (xs : List Access) : Prop :=
  ∃ ns, m.run s b = ⟨.ok a, s', b', xs, ns⟩

namespace Driver

variable {σ α β : Type} {s s' : σ} {b b' : Nat} {xs : List Access}

theorem Leads.unique {m : Driver σ α} {a a₁ : α} {s₁ : σ} {b₁ : Nat} {ys : List Access} (h : m.Leads s b a s' b' xs)
    (h₁ : m.Leads s b a₁ s₁ b₁ ys) : a = a₁ ∧ s' = s₁ ∧ b' = b₁ ∧ xs = ys := by
  obtain ⟨ns, h⟩ := h
  obtain ⟨ms, h₁⟩ := h₁
  cases h.symm.trans h₁
  exact ⟨rfl, rfl, rfl, rfl⟩

theorem leads_of_ok {m : Driver σ α} {a : α} (h : (m.run s b).result = .ok a) :
    m.Leads s b a (m.run s b).device (m.run s b).budget (m.run s b).accesses :=
  ⟨(m.run s b).notices, by rw [← h]⟩

theorem leads_pure {a a' : α} :
    (pure a : Driver σ α).Leads s b a' s' b' xs ↔ a = a' ∧ s = s' ∧ b = b' ∧ xs = [] := by
  constructor
  · rintro ⟨ns, h⟩
    cases h
    exact ⟨rfl, rfl, rfl, rfl⟩
  · rintro ⟨rfl, rfl, rfl, rfl⟩
    exact ⟨[], rfl⟩

theorem leads_note {n : Notice} : (note n : Driver σ Unit).Leads s b () s' b' xs ↔ s = s' ∧ b = b' ∧ xs = [] := by
  constructor
  · rintro ⟨ns, h⟩
    cases h
    exact ⟨rfl, rfl, rfl⟩
  · rintro ⟨rfl, rfl, rfl⟩
    exact ⟨[n], rfl⟩

theorem leads_connect {f : σ → σ} : (connect f).Leads s b () s' b' xs ↔ f s = s' ∧ b = b' ∧ xs = [] := by
  constructor
  · rintro ⟨ns, h⟩
    cases h
    exact ⟨rfl, rfl, rfl⟩
  · rintro ⟨rfl, rfl, rfl⟩
    exact ⟨[], rfl⟩

theorem leads_bind {m : Driver σ α} {f : α → Driver σ β} {c : β} :
    (m >>= f).Leads s b c s' b' xs ↔
      ∃ a t d ys zs, m.Leads s b a t d ys ∧ (f a).Leads t d c s' b' zs ∧ xs = ys ++ zs := by
  simp only [Leads, run, bind_apply]
  constructor
  · rintro ⟨ns, h⟩
    rcases hm : m s b with ⟨_ | a, t, d, ys, ms⟩
    · simp [hm] at h
    · rw [hm] at h
      rcases hf : f a t d with ⟨r, _, _, zs, ks⟩
      simp only [hf] at h
      cases h
      exact ⟨a, t, d, ys, zs, ⟨ms, rfl⟩, ⟨ks, hf⟩, rfl⟩
  · rintro ⟨a, t, d, ys, zs, ⟨ms, hm⟩, ⟨ks, hf⟩, rfl⟩
    exact ⟨ms ++ ks, by rw [hm]; simp [hf]⟩

end Driver

namespace Slot

variable {σ α : Type}

def Call.isFill : Call σ α → Bool
  | .fill .. => true
  | .use _ => false

/-- What the last `fill` of a history has answered. -/
def lastFill (history : List (Call σ α × Answer α)) : Option (Answer α) :=
  (history.reverse.find? (·.1.isFill)).map (·.2)

theorem exists_last_fill (calls : List (Call σ α)) :
    (∃ uses : List (Use σ α), calls = uses.map .use) ∨
      ∃ before connect base config, ∃ uses : List (Use σ α),
        calls = before ++ .fill connect base config :: uses.map .use := by
  induction calls with
  | nil => exact .inl ⟨[], rfl⟩
  | cons call calls ih =>
    rcases ih with ⟨uses, rfl⟩ | ⟨before, connect, base, config, uses, rfl⟩
    · cases call with
      | use use => exact .inl ⟨use :: uses, rfl⟩
      | fill connect base config => exact .inr ⟨[], connect, base, config, uses, rfl⟩
    · exact .inr ⟨call :: before, connect, base, config, uses, rfl⟩

theorem find?_uses (uses : List (Use σ α)) (answers : List (Answer α)) :
    ((uses.map Call.use).zip answers).reverse.find? (·.1.isFill) = none := by
  rw [List.find?_eq_none]
  intro p hp
  obtain ⟨use, -, huse⟩ := List.mem_map.mp (List.of_mem_zip (List.mem_reverse.mp hp)).1
  simp [← huse, Call.isFill]

theorem lastFill_uses (uses : List (Use σ α)) (answers : List (Answer α)) :
    lastFill ((uses.map Call.use).zip answers) = none := by
  rw [lastFill, find?_uses, Option.map_none]

theorem lastFill_append {before : List (Call σ α)} {answers₀ answers₁ : List (Answer α)}
    (hlength : before.length = answers₀.length) (connect : σ → σ) (base : UInt32) (config : Config) (answer : Answer α)
    (uses : List (Use σ α)) :
    lastFill ((before ++ Call.fill connect base config :: uses.map Call.use).zip (answers₀ ++ answer :: answers₁)) =
      some answer := by
  rw [lastFill, List.zip_append hlength, List.zip_cons_cons, List.reverse_append, List.reverse_cons, List.find?_append,
    List.find?_append, find?_uses]
  rfl

variable [Device σ]

variable {slot slot' : Slot} {calls more : List (Call σ α)} {answers : List (Answer α)} {s s' : σ} {b b' : Nat}
  {xs : List Access}

theorem leads_cons {call : Call σ α} (h : (slot.performs (call :: calls)).Leads s b (answers, slot') s' b' xs) :
    ∃ answer slot₁ s₁ b₁ ys rest zs, (slot.perform call).Leads s b (answer, slot₁) s₁ b₁ ys ∧
      (slot₁.performs calls).Leads s₁ b₁ (rest, slot') s' b' zs ∧ answers = answer :: rest ∧ xs = ys ++ zs := by
  obtain ⟨⟨answer, slot₁⟩, s₁, b₁, ys, zs, hfirst, htail, rfl⟩ := Driver.leads_bind.mp h
  obtain ⟨⟨rest, slot₂⟩, s₂, b₂, zs, _, hrest, hend, rfl⟩ := Driver.leads_bind.mp htail
  obtain ⟨hanswers, rfl, rfl, rfl⟩ := Driver.leads_pure.mp hend
  cases hanswers
  exact ⟨answer, slot₁, s₁, b₁, ys, rest, zs, hfirst, hrest, rfl, by rw [List.append_nil]⟩

theorem leads_append (h : (slot.performs (calls ++ more)).Leads s b (answers, slot') s' b' xs) :
    ∃ answers₀ slot₀ s₀ b₀ ys answers₁ zs, (slot.performs calls).Leads s b (answers₀, slot₀) s₀ b₀ ys ∧
      (slot₀.performs more).Leads s₀ b₀ (answers₁, slot') s' b' zs ∧ answers = answers₀ ++ answers₁ ∧ xs = ys ++ zs := by
  induction calls generalizing slot s b answers xs with
  | nil => exact ⟨[], slot, s, b, [], answers, xs, Driver.leads_pure.mpr ⟨rfl, rfl, rfl, rfl⟩, h, rfl, rfl⟩
  | cons call calls ih =>
    obtain ⟨answer, slot₁, s₁, b₁, us, rest, vs, hfirst, hrest, rfl, rfl⟩ := leads_cons h
    obtain ⟨answers₀, slot₀, s₀, b₀, ys, answers₁, zs, hbefore, hmore, rfl, rfl⟩ := ih hrest
    refine ⟨answer :: answers₀, slot₀, s₀, b₀, us ++ ys, answers₁, zs, ?_, hmore, rfl, (List.append_assoc us ys zs).symm⟩
    exact Driver.leads_bind.mpr ⟨_, s₁, b₁, us, ys, hfirst,
      Driver.leads_bind.mpr ⟨_, s₀, b₀, ys, [], hbefore, Driver.leads_pure.mpr ⟨rfl, rfl, rfl, rfl⟩,
        (List.append_nil ys).symm⟩, rfl⟩

theorem length_of_leads (h : (slot.performs calls).Leads s b (answers, slot') s' b' xs) :
    calls.length = answers.length := by
  induction calls generalizing slot s b answers xs with
  | nil => exact (Prod.mk.inj (Driver.leads_pure.mp h).1).1 ▸ rfl
  | cons call calls ih =>
    obtain ⟨answer, slot₁, s₁, b₁, ys, rest, zs, -, hrest, rfl, -⟩ := leads_cons h
    exact congrArg Nat.succ (ih hrest)

/-- A `fill` forgets the slot there was. -/
theorem leads_fill {connect : σ → σ} {base : UInt32} {config : Config} {answer : Answer α}
    (h : (slot.perform (.fill connect base config)).Leads s b (answer, slot') s' b' xs) :
    (∃ card, answer = .ok none ∧ slot' = ⟨some card⟩ ∧
      (Card.bringUp config).run.Leads (connect s) b (.ok card) s' b' xs) ∨
    ∃ cause, answer = .error cause ∧ slot' = empty ∧
      (Card.bringUp config).run.Leads (connect s) b (.error cause) s' b' xs := by
  obtain ⟨_, _, _, _, _, hconnect, hrest, rfl⟩ := Driver.leads_bind.mp h
  obtain ⟨rfl, rfl, rfl⟩ := Driver.leads_connect.mp hconnect
  obtain ⟨⟨result, slot₁⟩, _, _, _, _, hfill, hend, rfl⟩ := Driver.leads_bind.mp hrest
  obtain ⟨hanswer, rfl, rfl, rfl⟩ := Driver.leads_pure.mp hend
  cases hanswer
  obtain ⟨_, _, _, _, _, hnote, hbring, rfl⟩ := Driver.leads_bind.mp hfill
  obtain ⟨rfl, rfl, rfl⟩ := Driver.leads_note.mp hnote
  obtain ⟨cause | card, _, _, _, _, hup, hkeep, rfl⟩ := Driver.leads_bind.mp hbring
  · obtain ⟨_, _, _, _, _, htold, hempty, rfl⟩ := Driver.leads_bind.mp hkeep
    obtain ⟨rfl, rfl, rfl⟩ := Driver.leads_note.mp htold
    obtain ⟨hresult, rfl, rfl, rfl⟩ := Driver.leads_pure.mp hempty
    cases hresult
    exact .inr ⟨cause, rfl, rfl, by simpa using hup⟩
  · obtain ⟨hresult, rfl, rfl, rfl⟩ := Driver.leads_pure.mp hkeep
    cases hresult
    exact .inl ⟨card, rfl, rfl, by simpa using hup⟩

/-! ### Uses of a card -/

theorem perform_use_filled (card : Card) (use : Use σ α) :
    (⟨some card⟩ : Slot).perform (.use use) = (do
      let (answer, card) ← card.serve use
      return (answer, ⟨some card⟩)) := by
  cases use with
  | withCard f => simp [perform, withCard, Card.serve, Except.map]
  | readBlock block dest => simp [perform, readBlock, Slot.use, withCard, Card.serve, Except.bind]
  | writeBlock block src => simp [perform, writeBlock, Slot.use, withCard, Card.serve, Except.bind]

theorem performs_uses_filled (card : Card) (uses : List (Use σ α)) :
    (⟨some card⟩ : Slot).performs (uses.map .use) = (do
      let (answers, card) ← card.serves uses
      return (answers, ⟨some card⟩)) := by
  induction uses generalizing card with
  | nil => simp [performs, Card.serves]
  | cons use uses ih => simp [performs, Card.serves, perform_use_filled, ih]

theorem perform_use_empty (use : Use σ α) (s : σ) (b : Nat) :
    (empty.perform (.use use)).Leads s b (.error .notInitialized, empty) s b [] := by
  cases use with
  | withCard f => exact ⟨_, rfl⟩
  | readBlock block dest => exact ⟨_, rfl⟩
  | writeBlock block src => exact ⟨_, rfl⟩

theorem leads_uses_empty {uses : List (Use σ α)}
    (h : (empty.performs (uses.map .use)).Leads s b (answers, slot) s' b' xs) : slot = empty := by
  induction uses generalizing s b answers xs with
  | nil => exact (Prod.mk.inj (Driver.leads_pure.mp h).1).2.symm
  | cons use uses ih =>
    obtain ⟨answer, slot₁, s₁, b₁, ys, rest, zs, hfirst, hrest, rfl, -⟩ := leads_cons h
    obtain ⟨hanswer, -⟩ := hfirst.unique (perform_use_empty use s b)
    cases hanswer
    exact ih hrest

theorem leads_uses_filled {card : Card} {uses : List (Use σ α)}
    (h : ((⟨some card⟩ : Slot).performs (uses.map .use)).Leads s b (answers, slot) s' b' xs) :
    ∃ card', slot = ⟨some card'⟩ ∧ (card.serves uses).Leads s b (answers, card') s' b' xs := by
  rw [performs_uses_filled] at h
  obtain ⟨⟨answers, card'⟩, _, _, _, _, hrun, hend, rfl⟩ := Driver.leads_bind.mp h
  obtain ⟨hslot, rfl, rfl, rfl⟩ := Driver.leads_pure.mp hend
  cases hslot
  exact ⟨card', rfl, by rwa [List.append_nil]⟩

/-! ### The last `fill` -/

/-- After every history that has returned: the slot is filled if and only if there was a `fill` and the last one passed.
While it is not, nothing is kept and each use is refused without an access. While it is, what the slot holds is the card
that the last `fill` has brought up, on which the uses since have run in their order, and that is the card the next
program runs on. -/
theorem performs_follows_last_fill (h : (empty.performs calls).Leads s b (answers, slot) s' b' xs) :
    (slot.isFilled ↔ lastFill (calls.zip answers) = some (.ok none)) ∧
    (slot.isFilled = false → slot = empty ∧ ∀ (use : Use σ α) (t : σ) (d : Nat),
      (slot.perform (.use use)).Leads t d (.error .notInitialized, empty) t d []) ∧
    (slot.isFilled → ∃ before connect base config, ∃ uses : List (Use σ α),
      calls = before ++ .fill connect base config :: uses.map .use ∧
      ∃ answers₀ slot₀ s₀ b₀ xs₀, (empty.performs before).Leads s b (answers₀, slot₀) s₀ b₀ xs₀ ∧
      ∃ fresh s₁ b₁ xs₁, (Card.bringUp config).run.Leads (connect s₀) b₀ (.ok fresh) s₁ b₁ xs₁ ∧
      ∃ card answers₁ xs₂, (fresh.serves uses).Leads s₁ b₁ (answers₁, card) s' b' xs₂ ∧
        answers = answers₀ ++ .ok none :: answers₁ ∧ xs = xs₀ ++ xs₁ ++ xs₂ ∧ slot = ⟨some card⟩ ∧
        ∀ {β : Type} (f : Card → Driver σ (β × Card)), slot.withCard f = (fun p => (.ok p.1, ⟨some p.2⟩)) <$> f card) := by
  rcases exists_last_fill calls with ⟨uses, rfl⟩ | ⟨before, connect, base, config, uses, rfl⟩
  · obtain rfl := leads_uses_empty h
    exact ⟨by simp [isFilled, empty, lastFill_uses], fun _ => ⟨rfl, perform_use_empty⟩, nofun⟩
  obtain ⟨answers₀, slot₀, s₀, b₀, xs₀, _, _, hbefore, hmore, rfl, rfl⟩ := leads_append h
  obtain ⟨answer, slot₁, s₁, b₁, xs₁, answers₁, xs₂, hfill, huses, rfl, rfl⟩ := leads_cons hmore
  rw [lastFill_append (length_of_leads hbefore)]
  rcases leads_fill hfill with ⟨fresh, rfl, rfl, hup⟩ | ⟨cause, rfl, rfl, hup⟩
  · obtain ⟨card, rfl, hrun⟩ := leads_uses_filled huses
    refine ⟨by simp [isFilled], nofun, fun _ => ⟨before, connect, base, config, uses, rfl, answers₀, slot₀, s₀, b₀, xs₀,
      hbefore, fresh, s₁, b₁, xs₁, hup, card, answers₁, xs₂, hrun, rfl, (List.append_assoc ..).symm, rfl, fun f => ?_⟩⟩
    simp [withCard]
  · obtain rfl := leads_uses_empty huses
    exact ⟨by simp [isFilled, empty], fun _ => ⟨rfl, perform_use_empty⟩, nofun⟩

/-- A `fill` that fails, a transfer, a `fill` that passes and a look at the card, which is then filled with that card. -/
theorem performs_follows_last_fill_again :
    let failing : List (Call Scripted UInt32) := [.fill id 0 { ocrAttempts := .attempts 0 }, .use (.readBlock 3 0x1000)]
    let calls := failing ++ [.fill id 0 {}, .use (.withCard fun card => pure (card.info.ocr, card))]
    (∃ answers s b xs, (empty.performs failing).Leads Scripted.willing 3000 (answers, empty) s b xs ∧
      (empty.perform (.use (.writeBlock 3 0x1000) : Call Scripted UInt32)).Leads s b (.error .notInitialized, empty) s b []) ∧
    ∃ answers slot s b xs, (empty.performs calls).Leads Scripted.willing 3000 (answers, slot) s b xs ∧ slot.isFilled ∧
      lastFill (calls.zip answers) = some (.ok none) ∧ answers.map Except.isOk = [false, false, true, true] ∧
      ∃ s₀ b₀ fresh s₁ b₁ xs₁ config, (Card.bringUp config).run.Leads (s₀ : Scripted) b₀ (.ok fresh) s₁ b₁ xs₁ := by
  intro failing calls
  have hempty : Driver.ends (empty.performs failing) Scripted.willing 3000 fun p => p.2.isFilled = false := by
    decide +kernel
  have hfilled : Driver.ends (empty.performs calls) Scripted.willing 3000
      fun p => p.2.isFilled ∧ p.1.map Except.isOk = [false, false, true, true] := by decide +kernel
  obtain ⟨⟨answers, slot⟩, hslot, hresult⟩ := Driver.exists_of_ends hempty
  obtain ⟨⟨answers', slot'⟩, hslot', hresult'⟩ := Driver.exists_of_ends hfilled
  have hleads := Driver.leads_of_ok hresult
  have hleads' := Driver.leads_of_ok hresult'
  obtain ⟨-, hrefused, -⟩ := performs_follows_last_fill hleads
  obtain ⟨hlast, -, hcard⟩ := performs_follows_last_fill hleads'
  obtain ⟨rfl, hrefused⟩ := hrefused (of_decide_eq_true hslot)
  obtain ⟨hkept, hanswers⟩ := of_decide_eq_true hslot'
  obtain ⟨_, connect, _, config, _, -, _, _, s₀, b₀, _, -, fresh, s₁, b₁, xs₁, hup, -⟩ := hcard hkept
  exact ⟨⟨answers, _, _, _, hleads, hrefused _ _ _⟩, answers', slot', _, _, _, hleads', hkept, hlast.mp hkept, hanswers,
    connect s₀, b₀, fresh, s₁, b₁, xs₁, config, hup⟩

end Slot

end SecureDigital

import SecureDigital.Device.Counter
import SecureDigital.Proofs.Follows

/-!
# Programs that reach their end

`m.Achieves s Q`: from the state `s` a run of `m` returns, as soon as it has budget enough, and `Q` holds
of what it returns and of the state it leaves. With less budget it runs out of it (`Yields`), so `Q`
holds of every run that returns. `x.Succeeds s Q` says the same of a program that may fail, and that it
does not. The rules follow the program text; a loop needs an invariant that counts its idle rounds
(`Achieves.poll`).
-/

namespace SecureDigital

variable {σ α β : Type}

/-- A run of `m` from `s` costs `cost` accesses, returns `a` and leaves `s'`. -/
structure Driver.Yields (m : Driver σ α) (s : σ) (cost : Nat) (a : α) (s' : σ) : Prop where
  returns : ∀ b, ∃ xs ns, m.run s (cost + b) = ⟨.ok a, s', b, xs, ns⟩
  exhausts : ∀ b < cost, (m.run s b).result = .error .outOfBudget

def Driver.Achieves (m : Driver σ α) (s : σ) (Q : α → σ → Prop) : Prop :=
  ∃ cost a s', m.Yields s cost a s' ∧ Q a s'

namespace Driver.Yields

variable {m m' : Driver σ α} {s s' : σ} {cost : Nat} {a : α}

theorem pure (a : α) (s : σ) : (Pure.pure a : Driver σ α).Yields s 0 a s where
  returns b := ⟨[], [], by rw [Nat.zero_add]; rfl⟩
  exhausts b hb := absurd hb (Nat.not_lt_zero b)

theorem notes (ns : List Notice) (s : σ) : (Driver.notes ns : Driver σ Unit).Yields s 0 () s where
  returns b := ⟨[], ns, by rw [Nat.zero_add]; rfl⟩
  exhausts b hb := absurd hb (Nat.not_lt_zero b)

theorem bind {f : α → Driver σ β} {s'' : σ} {cost' : Nat} {b : β} (hm : m.Yields s cost a s')
    (hf : (f a).Yields s' cost' b s'') : (m >>= f).Yields s (cost + cost') b s'' where
  returns rest := by
    obtain ⟨xs, ns, hrun⟩ := hm.returns (cost' + rest)
    obtain ⟨ys, ms, hrun'⟩ := hf.returns rest
    simp only [run] at hrun hrun'
    refine ⟨xs ++ ys, ns ++ ms, ?_⟩
    rw [run, Nat.add_assoc, bind_apply, hrun]
    simp only [hrun']
  exhausts rest hrest := by
    simp only [run, bind_apply]
    by_cases hlt : rest < cost
    · have hstop := hm.exhausts rest hlt
      simp only [run] at hstop
      rcases hrun : m s rest with ⟨e | _, s₁, b₁, xs, ns⟩ <;> rw [hrun] at hstop <;> cases hstop
      rfl
    · obtain ⟨left, rfl⟩ := Nat.exists_eq_add_of_le (Nat.not_lt.1 hlt)
      obtain ⟨xs, ns, hrun⟩ := hm.returns left
      simp only [run] at hrun
      rw [hrun]
      exact hf.exhausts left (by omega)

theorem congr (h : m.Yields s cost a s') (hrun : ∀ b, m'.run s b = m.run s b) : m'.Yields s cost a s' where
  returns b := by rw [hrun]; exact h.returns b
  exhausts b hb := by rw [hrun]; exact h.exhausts b hb

/-- A run that returns returns this. -/
theorem eq_of_ok (h : m.Yields s cost a s') {b : Nat} {a' : α} (hok : (m.run s b).result = .ok a') :
    a' = a ∧ (m.run s b).device = s' := by
  by_cases hlt : b < cost
  · rw [h.exhausts b hlt] at hok
    cases hok
  · obtain ⟨rest, rfl⟩ := Nat.exists_eq_add_of_le (Nat.not_lt.1 hlt)
    obtain ⟨xs, ns, hrun⟩ := h.returns rest
    rw [hrun] at hok ⊢
    cases hok
    exact ⟨rfl, rfl⟩

theorem ne_none {probe : Driver σ (Option α)} {n : Nat} (h : (attempt n probe).Yields s cost (some a) s') (b : Nat) :
    ((attempt n probe).run s b).result ≠ .ok none := by
  intro hnone
  cases (h.eq_of_ok hnone).1

section Accesses

variable [Device σ]

theorem write {register : ControlRegister} {value : UInt32} (h : Device.write s register value = some s') :
    (Driver.write register value : Driver σ Unit).Yields s 1 () s' where
  returns b := ⟨[.write register value], [], by simp [run, Driver.write, spend, Nat.add_comm 1, h]⟩
  exhausts b hb := by
    obtain rfl := Nat.lt_one_iff.1 hb
    rfl

theorem read (register : StatusRegister) (s : σ) :
    (Driver.read register : Driver σ UInt32).Yields s 1 (Device.read s register).1 (Device.read s register).2 where
  returns b := ⟨[.read register (Device.read s register).1], [], by rw [Nat.add_comm]; rfl⟩
  exhausts b hb := by
    obtain rfl := Nat.lt_one_iff.1 hb
    rfl

theorem readMemory {address : UInt32} {length : Nat} {bytes : Vector UInt8 length}
    (h : Device.readMemory s address length = some (bytes, s')) :
    (Driver.readMemory address length : Driver σ _).Yields s 1 bytes s' where
  returns b := ⟨[.readMemory address length bytes.toArray], [], by
    simp [run, Driver.readMemory, spend, Nat.add_comm 1, h]⟩
  exhausts b hb := by
    obtain rfl := Nat.lt_one_iff.1 hb
    rfl

theorem writeMemory {address : UInt32} {bytes : Array UInt8} (h : Device.writeMemory s address bytes = some s') :
    (Driver.writeMemory address bytes : Driver σ Unit).Yields s 1 () s' where
  returns b := ⟨[.writeMemory address bytes], [], by simp [run, Driver.writeMemory, spend, Nat.add_comm 1, h]⟩
  exhausts b hb := by
    obtain rfl := Nat.lt_one_iff.1 hb
    rfl

end Accesses

end Driver.Yields

namespace Driver.Achieves

variable {m : Driver σ α} {s s' : σ} {P Q : α → σ → Prop}

theorem imp (h : m.Achieves s P) (hPQ : ∀ a s', P a s' → Q a s') : m.Achieves s Q := by
  obtain ⟨cost, a, s', hyields, hP⟩ := h
  exact ⟨cost, a, s', hyields, hPQ a s' hP⟩

theorem pure {a : α} (h : Q a s) : (Pure.pure a : Driver σ α).Achieves s Q := ⟨0, a, s, .pure a s, h⟩

theorem bind {f : α → Driver σ β} {R : β → σ → Prop} (hm : m.Achieves s Q)
    (hf : ∀ a s', Q a s' → (f a).Achieves s' R) : (m >>= f).Achieves s R := by
  obtain ⟨cost, a, s', hyields, hQ⟩ := hm
  obtain ⟨cost', b, s'', hyields', hR⟩ := hf a s' hQ
  exact ⟨cost + cost', b, s'', hyields.bind hyields', hR⟩

/-- What holds of all runs that return holds of this one. -/
theorem runs (h : m.Achieves s Q) : m.Achieves s fun a s' => Q a s' ∧ ∃ xs, m.Runs (.ok a) xs := by
  obtain ⟨cost, a, s', hyields, hQ⟩ := h
  obtain ⟨xs, ns, hrun⟩ := hyields.returns 0
  exact ⟨cost, a, s', hyields, hQ, xs, s, cost + 0, by rw [hrun], by rw [hrun]⟩

theorem notes {ns : List Notice} {Q : Unit → σ → Prop} (h : Q () s) : (Driver.notes ns).Achieves s Q :=
  ⟨0, (), s, .notes ns s, h⟩

theorem notes_bind {ns : List Notice} {f : Unit → Driver σ β} {R : β → σ → Prop} (h : (f ()).Achieves s R) :
    (Driver.notes ns >>= f).Achieves s R := by
  have hnotes : (Driver.notes ns).Achieves s fun _ s' => s' = s := notes rfl
  exact hnotes.bind fun _ _ hs => hs ▸ h

theorem map {f : α → β} {R : β → σ → Prop} (h : m.Achieves s fun a s' => R (f a) s') : (f <$> m).Achieves s R := by
  rw [← bind_pure_comp]
  exact h.bind fun a s' hR => .pure hR

/-- What every element of a list keeps, the list keeps. -/
theorem forM {I : σ → Prop} {l : List β} {f : β → Driver σ Unit} (hf : ∀ b s, I s → (f b).Achieves s fun _ s' => I s')
    (h : I s) : (l.forM f).Achieves s fun _ s' => I s' := by
  induction l generalizing s with
  | nil => exact pure h
  | cons b l ih => exact (hf b s h).bind fun _ s' hs' => ih hs'

/-- With budget enough, a run returns, and then `Q` holds. -/
theorem exists_budget (h : m.Achieves s Q) :
    ∃ n, ∀ b, n ≤ b → ∃ a, (m.run s b).result = .ok a ∧ Q a (m.run s b).device := by
  obtain ⟨cost, a, s', hyields, hQ⟩ := h
  refine ⟨cost, fun b hb => ⟨a, ?_⟩⟩
  obtain ⟨rest, rfl⟩ := Nat.exists_eq_add_of_le hb
  obtain ⟨xs, ns, hrun⟩ := hyields.returns rest
  rw [hrun]
  exact ⟨rfl, hQ⟩

section Accesses

variable [Device σ]

theorem write {register : ControlRegister} {value : UInt32} {Q : Unit → σ → Prop}
    (h : Device.write s register value = some s') (hQ : Q () s') : (Driver.write register value).Achieves s Q :=
  ⟨1, (), s', .write h, hQ⟩

theorem write_bind {register : ControlRegister} {value : UInt32} {f : Unit → Driver σ β} {R : β → σ → Prop}
    (h : Device.write s register value = some s') (hf : (f ()).Achieves s' R) :
    (Driver.write register value >>= f).Achieves s R := by
  obtain ⟨cost, b, s'', hyields, hR⟩ := hf
  exact ⟨1 + cost, b, s'', (Yields.write h).bind hyields, hR⟩

theorem read_bind {register : StatusRegister} {f : UInt32 → Driver σ β} {R : β → σ → Prop}
    (hf : (f (Device.read s register).1).Achieves (Device.read s register).2 R) :
    (read register >>= f).Achieves s R := by
  obtain ⟨cost, b, s'', hyields, hR⟩ := hf
  exact ⟨1 + cost, b, s'', (Yields.read register s).bind hyields, hR⟩

theorem readMemory {address : UInt32} {length : Nat} {bytes : Vector UInt8 length} {Q : Vector UInt8 length → σ → Prop}
    (h : Device.readMemory s address length = some (bytes, s')) (hQ : Q bytes s') :
    (Driver.readMemory address length : Driver σ _).Achieves s Q :=
  ⟨1, bytes, s', .readMemory h, hQ⟩

theorem writeMemory {address : UInt32} {bytes : Array UInt8} {Q : Unit → σ → Prop}
    (h : Device.writeMemory s address bytes = some s') (hQ : Q () s') :
    (Driver.writeMemory address bytes : Driver σ Unit).Achieves s Q :=
  ⟨1, (), s', .writeMemory h, hQ⟩

end Accesses

section Loops

variable {probe : Driver σ (Option α)} {I : Nat → σ → Prop} {k : Nat}

/-- What every round keeps, a bounded loop keeps, however it ends. -/
theorem attempt_keeps {J : σ → Prop} (hround : ∀ s, J s → probe.Achieves s fun _ s' => J s') (n : Nat) (h : J s) :
    (attempt n probe).Achieves s fun _ s' => J s' := by
  induction n generalizing s with
  | zero => exact pure h
  | succ n ih =>
    refine (hround s h).bind fun r s' hs' => ?_
    cases r with
    | none => exact ih hs'
    | some a => exact pure hs'

/-- A bounded loop with no more rounds than there are idle ones yields nothing. -/
theorem attempt_exhausted (hidle : ∀ i s, I (i + 1) s → probe.Achieves s fun r s' => r = none ∧ I i s') {n : Nat}
    (hn : n ≤ k) (h : I k s) : (attempt n probe).Achieves s fun r _ => r = none := by
  induction n generalizing k s with
  | zero => exact pure rfl
  | succ n ih =>
    obtain ⟨k, rfl⟩ := Nat.exists_eq_add_of_lt hn
    refine (hidle _ s h).bind fun r s' ⟨hr, hs'⟩ => ?_
    subst hr
    exact ih (by omega) hs'

/-- A loop that counts its idle rounds down yields the same under every number of rounds above theirs. -/
theorem attempts (hidle : ∀ i s, I (i + 1) s → probe.Achieves s fun r s' => r = none ∧ I i s')
    (hlast : ∀ s, I 0 s → probe.Achieves s fun r s' => ∃ a, r = some a ∧ Q a s') (h : I k s) :
    ∃ cost a s', Q a s' ∧ ∀ n, k < n → (attempt n probe).Yields s cost (some a) s' := by
  induction k generalizing s with
  | zero =>
    obtain ⟨cost, r, s', hyields, a, rfl, hQ⟩ := hlast s h
    refine ⟨cost + 0, a, s', hQ, fun n hn => ?_⟩
    obtain ⟨n, rfl⟩ := Nat.exists_eq_add_of_lt hn
    exact hyields.bind (.pure (some a) s')
  | succ k ih =>
    obtain ⟨cost, r, s₁, hyields, rfl, hI⟩ := hidle k s h
    obtain ⟨cost', a, s', hQ, hrest⟩ := ih hI
    refine ⟨cost + cost', a, s', hQ, fun n hn => ?_⟩
    obtain ⟨n, rfl⟩ := Nat.exists_eq_succ_of_ne_zero (Nat.ne_of_gt (Nat.zero_lt_of_lt hn))
    exact hyields.bind (hrest n (Nat.lt_of_succ_lt_succ hn))

theorem repeatUntil (hpaced : probe.Paced)
    (hidle : ∀ i s, I (i + 1) s → probe.Achieves s fun r s' => r = none ∧ I i s')
    (hlast : ∀ s, I 0 s → probe.Achieves s fun r s' => ∃ a, r = some a ∧ Q a s') (h : I k s) :
    (repeatUntil probe).Achieves s Q := by
  obtain ⟨cost, a, s', hQ, hyields⟩ := attempts hidle hlast h
  have hloop : (attempt (k + 1) probe >>= orOutOfBudget).Yields s (cost + 0) a s' :=
    (hyields (k + 1) (Nat.lt_succ_self k)).bind (.pure a s')
  -- The loop has as many rounds as there is budget: that is enough, since each round costs something.
  refine ⟨cost + 0, a, s', hloop.congr fun b => ?_, hQ⟩
  have hrounds : (attempt (b + 1) probe).run s b = (attempt (k + 1) probe).run s b := by
    rcases Nat.le_total (b + 1) (k + 1) with hle | hle
    · exact (attempt_of_le hle (hpaced.attempt_ne_none s (Nat.lt_succ_self b))).symm
    · exact attempt_of_le hle ((hyields (k + 1) (Nat.lt_succ_self k)).ne_none b)
  simp only [run] at hrounds
  simp only [run, Driver.repeatUntil, bind_apply, hrounds]

/-- A poll whose limit allows the idle rounds ends with the round after them. -/
theorem poll {limit : PollLimit} (hpaced : probe.Paced) (hlimit : limit.Allows k)
    (hidle : ∀ i s, I (i + 1) s → probe.Achieves s fun r s' => r = none ∧ I i s')
    (hlast : ∀ s, I 0 s → probe.Achieves s fun r s' => ∃ a, r = some a ∧ Q a s') (h : I k s) :
    (limit.poll probe).Achieves s fun r s' => ∃ a, r = some a ∧ Q a s' := by
  cases limit with
  | unbounded => exact map ((repeatUntil hpaced hidle hlast h).imp fun a s' hQ => ⟨a, rfl, hQ⟩)
  | attempts n =>
    obtain ⟨cost, a, s', hQ, hyields⟩ := attempts hidle hlast h
    exact ⟨cost, some a, s', hyields n.toNat (hlimit n rfl), a, rfl, hQ⟩

end Loops

end Driver.Achieves

/-! ### How often a poll reads -/

namespace Counter
variable {hit : UInt32}

theorem eq_some_count_iff {n : Nat} (hn : n ≤ hit.toNat) : some hit = some (UInt32.ofNat n) ↔ n = hit.toNat := by
  have hfits : n < UInt32.size := Nat.lt_of_le_of_lt hn hit.toNat_lt_size
  rw [Option.some.injEq, ← UInt32.toNat_inj, UInt32.toNat_ofNat_of_lt' hfits]
  exact eq_comm

theorem achieves_idle_probe {c : Counter} (h : c.reads + 1 < hit.toNat) :
    (probe (some hit)).Achieves c fun r c' => r = none ∧ c'.reads = c.reads + 1 :=
  .read_bind (.pure ⟨if_neg fun heq => Nat.ne_of_lt h ((eq_some_count_iff (Nat.le_of_lt h)).1 heq), rfl⟩)

/-- A poll ends with the read that shows `hit`, if its limit lets it come to it. -/
theorem achieves_poll {limit : PollLimit} (hpos : 0 < hit.toNat) (hlimit : limit.Allows (hit.toNat - 1)) :
    (limit.poll (probe (some hit))).Achieves ⟨0⟩ fun r c => r = some hit ∧ c.reads = hit.toNat := by
  -- With `i` idle rounds to come, one read more than these is left.
  let idle (i : Nat) (c : Counter) : Prop := c.reads + (i + 1) = hit.toNat
  have hidle (i : Nat) (c : Counter) (hc : idle (i + 1) c) :
      (probe (some hit)).Achieves c fun r c' => r = none ∧ idle i c' := by
    have hmore : c.reads + 1 < hit.toNat := by omega
    exact (achieves_idle_probe hmore).imp fun r c' ⟨hr, hreads⟩ => ⟨hr, by show c'.reads + _ = _; omega⟩
  have hlast (c : Counter) (hc : idle 0 c) :
      (probe (some hit)).Achieves c fun r c' => ∃ count, r = some count ∧ count = hit ∧ c'.reads = hit.toNat := by
    have hshown : some hit = some (UInt32.ofNat (c.reads + 1)) := (eq_some_count_iff (Nat.le_of_eq hc)).2 hc
    exact .read_bind (.pure ⟨hit, (if_pos hshown).trans hshown.symm, rfl, hc⟩)
  have hstart : idle (hit.toNat - 1) ⟨0⟩ := by
    show 0 + _ = _
    omega
  refine (Driver.Achieves.poll (.of_read _) hlimit hidle hlast hstart).imp ?_
  rintro _ c ⟨_, rfl, rfl, hreads⟩
  exact ⟨rfl, hreads⟩

/-- A poll whose limit is below `hit` reads as often as the limit says. -/
theorem achieves_attempts {n : UInt32} (h : n < hit) :
    ((PollLimit.attempts n).poll (probe (some hit))).Achieves ⟨0⟩ fun r c => r = none ∧ c.reads = n.toNat := by
  have hrounds (k : Nat) (c : Counter) (hc : c.reads + k < hit.toNat) :
      (Driver.attempt k (probe (some hit))).Achieves c fun r c' => r = none ∧ c'.reads = c.reads + k := by
    induction k generalizing c with
    | zero => exact .pure ⟨rfl, rfl⟩
    | succ k ih =>
      refine (achieves_idle_probe (by omega)).bind ?_
      rintro _ c' ⟨rfl, hreads⟩
      exact (ih c' (by omega)).imp fun r c'' ⟨hr, hreads'⟩ => ⟨hr, by omega⟩
  have hall := hrounds n.toNat ⟨0⟩ (by rw [Nat.zero_add]; exact UInt32.lt_iff_toNat_lt.1 h)
  rwa [Nat.zero_add] at hall

end Counter

/-- From `s`, a run of `x` that has budget enough returns without an error, and `Q` holds. -/
def Fallible.Succeeds (x : Fallible σ α) (s : σ) (Q : α → σ → Prop) : Prop :=
  x.run.Achieves s fun r s' => ∃ a, r = .ok a ∧ Q a s'

namespace Fallible.Succeeds

variable {x : Fallible σ α} {s : σ} {P Q : α → σ → Prop}

theorem imp (h : Succeeds x s P) (hPQ : ∀ a s', P a s' → Q a s') : Succeeds x s Q :=
  Driver.Achieves.imp h fun _ s' ⟨a, hr, hP⟩ => ⟨a, hr, hPQ a s' hP⟩

theorem pure {a : α} (h : Q a s) : Succeeds (Pure.pure a : Fallible σ α) s Q :=
  Driver.Achieves.pure ⟨a, rfl, h⟩

theorem lift {m : Driver σ α} (h : m.Achieves s Q) : Succeeds (ExceptT.lift m) s Q := by
  unfold Succeeds
  rw [ExceptT.run_lift]
  exact .map (h.imp fun a s' hQ => ⟨a, rfl, hQ⟩)

theorem runs (h : Succeeds x s Q) : Succeeds x s fun a s' => Q a s' ∧ ∃ xs, x.run.Runs (.ok (.ok a)) xs := by
  refine Driver.Achieves.imp (Driver.Achieves.runs h) fun r s' ⟨⟨a, hr, hQ⟩, hruns⟩ => ⟨a, hr, hQ, ?_⟩
  rwa [hr] at hruns

section Binds

variable {ns : List Notice} {m : Driver σ α} {f : α → Fallible σ β} {g : Unit → Fallible σ β}

/-! What follows a program that succeeds may still fail (`run_bind` and its kind), or succeeds too. -/

theorem run_bind {R : Except Error β → σ → Prop} (hx : Succeeds x s Q)
    (hf : ∀ a s', Q a s' → (f a).run.Achieves s' R) : (x >>= f).run.Achieves s R := by
  rw [ExceptT.run_bind]
  refine Driver.Achieves.bind hx fun r s' hr => ?_
  obtain ⟨a, rfl, hQ⟩ := hr
  exact hf a s' hQ

theorem run_lift_bind {R : Except Error β → σ → Prop} (hm : m.Achieves s Q)
    (hf : ∀ a s', Q a s' → (f a).run.Achieves s' R) : (ExceptT.lift m >>= f).run.Achieves s R :=
  run_bind (lift hm) hf

theorem run_notes_bind {R : Except Error β → σ → Prop} (h : (g ()).run.Achieves s R) :
    (ExceptT.lift (Driver.notes ns) >>= g).run.Achieves s R := by
  have hnotes : (Driver.notes ns).Achieves s fun _ s' => s' = s := .notes rfl
  exact run_lift_bind hnotes fun _ _ hs => hs ▸ h

theorem bind {R : β → σ → Prop} (hx : Succeeds x s Q) (hf : ∀ a s', Q a s' → Succeeds (f a) s' R) :
    Succeeds (x >>= f) s R :=
  run_bind hx hf

theorem lift_bind {R : β → σ → Prop} (hm : m.Achieves s Q) (hf : ∀ a s', Q a s' → Succeeds (f a) s' R) :
    Succeeds (ExceptT.lift m >>= f) s R :=
  run_lift_bind hm hf

theorem notes_bind {R : β → σ → Prop} (h : Succeeds (g ()) s R) :
    Succeeds (ExceptT.lift (Driver.notes ns) >>= g) s R :=
  run_notes_bind h

end Binds

end Fallible.Succeeds

end SecureDigital

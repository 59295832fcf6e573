import SecureDigital.Driver

/-!
# The runs of a program

`m.Runs r xs`: from some state of the device and with some budget, `m` ends in `r` and makes the
accesses `xs`. What one can say of all runs of all devices is said about `Runs`: it forgets the device
between two accesses, so every answer is possible everywhere.

A run takes its program apart: a bind (`Runs.bind`, `Runs.bindFallible`), a single access, and a loop
that is polled under a limit (`Polled`).
-/

namespace SecureDigital

variable {σ α β : Type}

theorem exists_eq_map_of_forall_mem {f : β → α} {p : β → Prop} {l : List α} (h : ∀ a ∈ l, ∃ b, a = f b ∧ p b) :
    ∃ bs : List β, l = bs.map f ∧ ∀ b ∈ bs, p b := by
  induction l with
  | nil => exact ⟨[], rfl, nofun⟩
  | cons a l ih =>
    obtain ⟨⟨b, rfl, hb⟩, hl⟩ := List.forall_mem_cons.1 h
    obtain ⟨bs, rfl, hbs⟩ := ih hl
    exact ⟨b :: bs, rfl, List.forall_mem_cons.2 ⟨hb, hbs⟩⟩

def Access.ofWrite (w : ControlRegister × UInt32) : Access := .write w.1 w.2

def Driver.Runs (m : Driver σ α) (r : Except Halt α) (xs : List Access) : Prop :=
  ∃ s b, (m.run s b).result = r ∧ (m.run s b).accesses = xs

/-- Whether `x` returns a value with `p` from the state `s` and with the budget `b`. -/
def Driver.returns (x : Fallible σ α) (s : σ) (b : Nat) (p : α → Bool) : Bool :=
  match (x.run.run s b).result with
  | .ok (.ok a) => p a
  | _ => false

def Driver.fails (x : Fallible σ α) (s : σ) (b : Nat) (e : Error) : Bool :=
  match (x.run.run s b).result with
  | .ok (.error e') => e' = e
  | _ => false

def Driver.ends (m : Driver σ α) (s : σ) (b : Nat) (p : α → Bool) : Bool :=
  match (m.run s b).result with
  | .ok a => p a
  | _ => false

theorem Driver.exists_of_returns {x : Fallible σ α} {s : σ} {b : Nat} {p : α → Bool} (h : returns x s b p) :
    ∃ a, p a ∧ (x.run.run s b).result = .ok (.ok a) := by
  unfold returns at h
  split at h
  case h_1 a hresult => exact ⟨a, h, hresult⟩
  case h_2 => cases h

theorem Driver.eq_of_fails {x : Fallible σ α} {s : σ} {b : Nat} {e : Error} (h : fails x s b e) :
    (x.run.run s b).result = .ok (.error e) := by
  unfold fails at h
  split at h
  case h_1 hresult => rw [hresult, of_decide_eq_true h]
  case h_2 => cases h

theorem Driver.exists_of_ends {m : Driver σ α} {s : σ} {b : Nat} {p : α → Bool} (h : ends m s b p) :
    ∃ a, p a ∧ (m.run s b).result = .ok a := by
  unfold ends at h
  split at h
  case h_1 a hresult => exact ⟨a, h, hresult⟩
  case h_2 => cases h

namespace Driver.Runs

variable {xs : List Access}

theorem of_pure {r : Except Halt α} {a : α} (h : (pure a : Driver σ α).Runs r xs) :
    r = .ok a ∧ xs = [] := by
  obtain ⟨s, b, rfl, rfl⟩ := h
  exact ⟨rfl, rfl⟩

theorem of_halt {r : Except Halt α} {e : Halt} (h : (halt e : Driver σ α).Runs r xs) :
    r = .error e ∧ xs = [] := by
  obtain ⟨s, b, rfl, rfl⟩ := h
  exact ⟨rfl, rfl⟩

theorem of_notes {r : Except Halt Unit} {ns : List Notice} (h : (notes ns : Driver σ Unit).Runs r xs) :
    r = .ok () ∧ xs = [] := by
  obtain ⟨s, b, rfl, rfl⟩ := h
  exact ⟨rfl, rfl⟩

/-- A run of a sequence stops in the first program, or runs both one after the other. -/
theorem bind {r : Except Halt β} {m : Driver σ α} {f : α → Driver σ β} (h : (m >>= f).Runs r xs) :
    (∃ e, r = .error e ∧ m.Runs (.error e) xs) ∨
      ∃ a ys zs, xs = ys ++ zs ∧ m.Runs (.ok a) ys ∧ (f a).Runs r zs := by
  obtain ⟨s, b, rfl, rfl⟩ := h
  simp only [run, bind_apply]
  rcases hm : m s b with ⟨e | a, s', b', ys, ns⟩
  · exact .inl ⟨e, rfl, s, b, by simp [run, hm], by simp [run, hm]⟩
  · exact .inr ⟨a, ys, _, rfl, ⟨s, b, by simp [run, hm], by simp [run, hm]⟩, s', b', rfl, rfl⟩

theorem bind_ok {b : β} {m : Driver σ α} {f : α → Driver σ β} (h : (m >>= f).Runs (.ok b) xs) :
    ∃ a ys zs, xs = ys ++ zs ∧ m.Runs (.ok a) ys ∧ (f a).Runs (.ok b) zs := by
  rcases h.bind with ⟨e, hr, -⟩ | h
  · cases hr
  · exact h

theorem map {r : Except Halt β} {m : Driver σ α} {f : α → β} (h : (f <$> m).Runs r xs) :
    ∃ r', m.Runs r' xs ∧ r = r'.map f := by
  rw [← bind_pure_comp] at h
  rcases h.bind with ⟨e, rfl, hm⟩ | ⟨a, ys, zs, rfl, hm, hf⟩
  · exact ⟨_, hm, rfl⟩
  · obtain ⟨rfl, rfl⟩ := of_pure hf
    exact ⟨_, by rwa [List.append_nil], rfl⟩

section Accesses

variable [Device σ]

theorem of_write {r : Except Halt Unit} {register : ControlRegister} {value : UInt32}
    (h : (write register value : Driver σ Unit).Runs r xs) :
    (r = .ok () ∧ xs = [.write register value]) ∨
      (r = .error .refused ∧ xs = [.write register value]) ∨ (r = .error .outOfBudget ∧ xs = []) := by
  obtain ⟨s, b, rfl, rfl⟩ := h
  cases b with
  | zero => exact .inr (.inr ⟨rfl, rfl⟩)
  | succ b =>
    simp only [run, write, spend]
    cases Device.write s register value with
    | none => exact .inr (.inl ⟨rfl, rfl⟩)
    | some s' => exact .inl ⟨rfl, rfl⟩

theorem of_read {r : Except Halt UInt32} {register : StatusRegister}
    (h : (read register : Driver σ UInt32).Runs r xs) :
    (∃ value, r = .ok value ∧ xs = [.read register value]) ∨ (r = .error .outOfBudget ∧ xs = []) := by
  obtain ⟨s, b, rfl, rfl⟩ := h
  cases b with
  | zero => exact .inr ⟨rfl, rfl⟩
  | succ b => exact .inl ⟨_, rfl, rfl⟩

theorem of_readMemory {address : UInt32} {length : Nat} {r : Except Halt (Vector UInt8 length)}
    (h : (readMemory address length : Driver σ _).Runs r xs) :
    (∃ bytes, r = .ok bytes ∧ xs = [.readMemory address length bytes.toArray]) ∨
      (r = .error .refused ∧ xs = [.readMemory address length #[]]) ∨
      (r = .error .outOfBudget ∧ xs = []) := by
  obtain ⟨s, b, rfl, rfl⟩ := h
  cases b with
  | zero => exact .inr (.inr ⟨rfl, rfl⟩)
  | succ b =>
    simp only [run, readMemory, spend]
    cases Device.readMemory s address length with
    | none => exact .inr (.inl ⟨rfl, rfl⟩)
    | some p => exact .inl ⟨p.1, rfl, rfl⟩

theorem of_writeMemory {address : UInt32} {bytes : Array UInt8} {r : Except Halt Unit}
    (h : (writeMemory address bytes : Driver σ Unit).Runs r xs) :
    (r = .ok () ∧ xs = [.writeMemory address bytes]) ∨ (r = .error .refused ∧ xs = [.writeMemory address bytes]) ∨
      (r = .error .outOfBudget ∧ xs = []) := by
  obtain ⟨s, b, rfl, rfl⟩ := h
  cases b with
  | zero => exact .inr (.inr ⟨rfl, rfl⟩)
  | succ b =>
    simp only [run, writeMemory, spend]
    cases Device.writeMemory s address bytes with
    | none => exact .inr (.inl ⟨rfl, rfl⟩)
    | some s' => exact .inl ⟨rfl, rfl⟩

end Accesses

section Sequences

theorem of_notes_bind {r : Except Halt β} {ns : List Notice} {f : Unit → Driver σ β}
    (h : (notes ns >>= f).Runs r xs) : (f ()).Runs r xs := by
  rcases h.bind with ⟨e, rfl, hm⟩ | ⟨_, ys, zs, rfl, hm, hf⟩
  · exact absurd hm.of_notes.1 nofun
  · obtain ⟨-, rfl⟩ := hm.of_notes
    exact hf

variable [Device σ]

theorem of_write_bind {r : Except Halt β} {register : ControlRegister} {value : UInt32}
    {f : Unit → Driver σ β} (h : (write register value >>= f).Runs r xs) :
    (∃ e, r = .error e ∧ (e = .refused ∨ xs = []) ∧ xs <+: [.write register value]) ∨
      ∃ ys, xs = .write register value :: ys ∧ (f ()).Runs r ys := by
  rcases h.bind with ⟨e, rfl, hm⟩ | ⟨_, ys, zs, rfl, hm, hf⟩
  · obtain ⟨⟨⟩, -⟩ | ⟨⟨⟩, rfl⟩ | ⟨⟨⟩, rfl⟩ := hm.of_write
    · exact .inl ⟨_, rfl, .inl rfl, List.prefix_rfl⟩
    · exact .inl ⟨_, rfl, .inr rfl, List.nil_prefix⟩
  · obtain ⟨-, rfl⟩ | ⟨⟨⟩, -⟩ | ⟨⟨⟩, -⟩ := hm.of_write
    exact .inr ⟨zs, rfl, hf⟩

theorem write_bind_ok {b : β} {register : ControlRegister} {value : UInt32} {f : Unit → Driver σ β}
    (h : (write register value >>= f).Runs (.ok b) xs) :
    ∃ ys, xs = .write register value :: ys ∧ (f ()).Runs (.ok b) ys := by
  rcases h.of_write_bind with ⟨e, hr, -⟩ | h
  · cases hr
  · exact h

/-- A run of writes that halts has made the first of them. -/
theorem of_writes {r : Except Halt Unit} {writes : List (ControlRegister × UInt32)}
    (h : (writes.forM fun w => write w.1 w.2 : Driver σ Unit).Runs r xs) :
    (r = .ok () ∧ xs = writes.map Access.ofWrite) ∨ ∃ e, r = .error e ∧ xs <+: writes.map Access.ofWrite := by
  induction writes generalizing xs with
  | nil => exact .inl h.of_pure
  | cons w writes ih =>
    have hcons : (write w.1 w.2 >>= fun _ => writes.forM fun w => write w.1 w.2 : Driver σ Unit).Runs r xs := h
    rcases hcons.of_write_bind with ⟨e, rfl, -, hxs⟩ | ⟨ys, rfl, hf⟩
    · exact .inr ⟨e, rfl, hxs.trans (List.prefix_append [_] _)⟩
    · rcases ih hf with ⟨rfl, rfl⟩ | ⟨e, rfl, hys⟩
      · exact .inl ⟨rfl, rfl⟩
      · exact .inr ⟨e, rfl, (List.prefix_cons_inj _).2 hys⟩

theorem of_read_bind {r : Except Halt β} {register : StatusRegister} {f : UInt32 → Driver σ β}
    (h : (read register >>= f).Runs r xs) :
    (r = .error .outOfBudget ∧ xs = []) ∨
      ∃ value ys, xs = .read register value :: ys ∧ (f value).Runs r ys := by
  rcases h.bind with ⟨e, rfl, hm⟩ | ⟨value, ys, zs, rfl, hm, hf⟩
  · obtain ⟨_, ⟨⟩, -⟩ | ⟨⟨⟩, rfl⟩ := hm.of_read
    exact .inl ⟨rfl, rfl⟩
  · obtain ⟨_, ⟨⟩, rfl⟩ | ⟨⟨⟩, -⟩ := hm.of_read
    exact .inr ⟨value, zs, rfl, hf⟩

end Sequences

/-- A run of a sequence that may fail stops in the first program, by a halt or an error, or runs both. -/
theorem bindFallible {r : Except Halt (Except Error β)} {x : Fallible σ α} {f : α → Fallible σ β}
    (h : (x >>= f).run.Runs r xs) :
    (∃ e, r = .error e ∧ x.run.Runs (.error e) xs) ∨
      (∃ e, r = .ok (.error e) ∧ x.run.Runs (.ok (.error e)) xs) ∨
      ∃ a ys zs, xs = ys ++ zs ∧ x.run.Runs (.ok (.ok a)) ys ∧ (f a).run.Runs r zs := by
  rw [ExceptT.run_bind] at h
  rcases h.bind with h | ⟨e | a, ys, zs, rfl, hx, hf⟩
  · exact .inl h
  · obtain ⟨rfl, rfl⟩ := of_pure hf
    exact .inr (.inl ⟨e, rfl, by rwa [List.append_nil]⟩)
  · exact .inr (.inr ⟨a, ys, zs, rfl, hx, hf⟩)

theorem of_lift {r : Except Halt (Except Error α)} {m : Driver σ α}
    (h : (ExceptT.lift m : Fallible σ α).run.Runs r xs) : ∃ r', m.Runs r' xs ∧ r = r'.map .ok := by
  rw [ExceptT.run_lift] at h
  exact h.map

/-- What cannot fail can only halt. -/
theorem bindLift {r : Except Halt (Except Error β)} {m : Driver σ α} {f : α → Fallible σ β}
    (h : (ExceptT.lift m >>= f).run.Runs r xs) :
    (∃ e, r = .error e ∧ m.Runs (.error e) xs) ∨
      ∃ a ys zs, xs = ys ++ zs ∧ m.Runs (.ok a) ys ∧ (f a).run.Runs r zs := by
  rcases h.bindFallible with ⟨e, rfl, hm⟩ | ⟨e, -, hm⟩ | ⟨a, ys, zs, rfl, hm, hf⟩
  · obtain ⟨_ | _, hm', ⟨⟩⟩ := hm.of_lift
    exact .inl ⟨e, rfl, hm'⟩
  · obtain ⟨_ | _, -, ⟨⟩⟩ := hm.of_lift
  · obtain ⟨_ | _, hm', ⟨⟩⟩ := hm.of_lift
    exact .inr ⟨a, ys, zs, rfl, hm', hf⟩

theorem bindFallible_ok {b : β} {x : Fallible σ α} {f : α → Fallible σ β}
    (h : (x >>= f).run.Runs (.ok (.ok b)) xs) :
    ∃ a ys zs, xs = ys ++ zs ∧ x.run.Runs (.ok (.ok a)) ys ∧ (f a).run.Runs (.ok (.ok b)) zs := by
  rcases h.bindFallible with ⟨e, hr, -⟩ | ⟨e, hr, -⟩ | h
  · cases hr
  · cases hr
  · exact h

theorem bindLift_ok {b : β} {m : Driver σ α} {f : α → Fallible σ β}
    (h : (ExceptT.lift m >>= f).run.Runs (.ok (.ok b)) xs) :
    ∃ a ys zs, xs = ys ++ zs ∧ m.Runs (.ok a) ys ∧ (f a).run.Runs (.ok (.ok b)) zs := by
  rcases h.bindLift with ⟨e, hr, -⟩ | h
  · cases hr
  · exact h

theorem of_lift_notes_bind {r : Except Halt (Except Error β)} {ns : List Notice} {f : Unit → Fallible σ β}
    (h : (ExceptT.lift (notes ns) >>= f).run.Runs r xs) : (f ()).run.Runs r xs := by
  rcases h.bindLift with ⟨_, rfl, hm⟩ | ⟨_, ys, zs, rfl, hm, hf⟩
  · obtain ⟨⟨⟩, -⟩ := hm.of_notes
  · obtain ⟨-, rfl⟩ := hm.of_notes
    exact hf

end Driver.Runs

/-! ### Polling -/

/-- Whether the limit lets a body run once more after `rounds` rounds. -/
def PollLimit.Allows (limit : PollLimit) (rounds : Nat) : Prop :=
  ∀ n, limit = .attempts n → rounds < n.toNat

/-- How polling `probe` under `limit` may go. Each list of `idle` is a round without a value. -/
inductive Polled (limit : PollLimit) (probe : Driver σ (Option α)) :
    Except Halt (Option α) → List Access → Prop
  | hit {idle : List (List Access)} {a : α} {ys : List Access}
      (hidle : ∀ xs ∈ idle, probe.Runs (.ok none) xs) (hlimit : limit.Allows idle.length)
      (hlast : probe.Runs (.ok (some a)) ys) : Polled limit probe (.ok (some a)) (idle.flatten ++ ys)
  | spent {idle : List (List Access)} {n : UInt32} (hidle : ∀ xs ∈ idle, probe.Runs (.ok none) xs)
      (hlimit : limit = .attempts n) (hlength : idle.length = n.toNat) :
      Polled limit probe (.ok none) idle.flatten
  | halted {idle : List (List Access)} {e : Halt} {ys : List Access}
      (hidle : ∀ xs ∈ idle, probe.Runs (.ok none) xs) (hlimit : limit.Allows idle.length)
      (hlast : ys = [] ∨ probe.Runs (.error e) ys) : Polled limit probe (.error e) (idle.flatten ++ ys)

namespace Driver.Runs

variable {xs : List Access}

/-- The rounds of a bounded loop: all idle, or idle up to one that ends it. -/
theorem of_attempt {n : Nat} {body : Driver σ (Option α)} {r : Except Halt (Option α)}
    (h : (attempt n body).Runs r xs) :
    ∃ idle : List (List Access), (∀ ys ∈ idle, body.Runs (.ok none) ys) ∧
      ((r = .ok none ∧ idle.length = n ∧ xs = idle.flatten) ∨
        (idle.length < n ∧ r ≠ .ok none ∧ ∃ ys, xs = idle.flatten ++ ys ∧ body.Runs r ys)) := by
  induction n generalizing xs with
  | zero =>
    obtain ⟨rfl, rfl⟩ := of_pure h
    exact ⟨[], by simp, .inl ⟨rfl, rfl, rfl⟩⟩
  | succ n ih =>
    rcases h.bind with ⟨e, rfl, hm⟩ | ⟨_ | a, ys, zs, rfl, hm, hf⟩
    · exact ⟨[], by simp, .inr ⟨Nat.succ_pos n, nofun, xs, rfl, hm⟩⟩
    · obtain ⟨idle, hidle, hcase⟩ := ih hf
      refine ⟨ys :: idle, List.forall_mem_cons.2 ⟨hm, hidle⟩, ?_⟩
      rcases hcase with ⟨rfl, hlen, rfl⟩ | ⟨hlen, hr, ys', rfl, hlast⟩
      · exact .inl ⟨rfl, congrArg Nat.succ hlen, rfl⟩
      · exact .inr ⟨Nat.succ_lt_succ hlen, hr, ys', by simp, hlast⟩
    · obtain ⟨rfl, rfl⟩ := of_pure hf
      exact ⟨[], by simp, .inr ⟨Nat.succ_pos n, nofun, ys, by simp, hm⟩⟩

/-- A loop without bound that halts may do so between two rounds. -/
theorem of_repeatUntil {body : Driver σ (Option α)} {r : Except Halt α}
    (h : (repeatUntil body).Runs r xs) :
    ∃ idle : List (List Access), (∀ ys ∈ idle, body.Runs (.ok none) ys) ∧ ∃ ys, xs = idle.flatten ++ ys ∧
      ((∃ e, r = .error e ∧ (ys = [] ∨ body.Runs (.error e) ys)) ∨
        ∃ a, r = .ok a ∧ body.Runs (.ok (some a)) ys) := by
  obtain ⟨s, b, hr, hxs⟩ := h
  have hloop : (attempt (b + 1) body >>= orOutOfBudget).Runs r xs := ⟨s, b, hr, hxs⟩
  rcases hloop.bind with ⟨e, rfl, hm⟩ | ⟨_ | a, ys, zs, rfl, hm, hf⟩
  · obtain ⟨idle, hidle, ⟨hr, -⟩ | ⟨-, -, ys, rfl, hlast⟩⟩ := of_attempt hm
    · cases hr
    · exact ⟨idle, hidle, ys, rfl, .inl ⟨e, rfl, .inr hlast⟩⟩
  · obtain ⟨rfl, rfl⟩ := of_halt hf
    obtain ⟨idle, hidle, ⟨-, -, rfl⟩ | ⟨-, hr, -⟩⟩ := of_attempt hm
    · exact ⟨idle, hidle, [], by simp, .inl ⟨_, rfl, .inl rfl⟩⟩
    · exact absurd rfl hr
  · obtain ⟨rfl, rfl⟩ := of_pure hf
    obtain ⟨idle, hidle, ⟨hr, -⟩ | ⟨-, -, ys, rfl, hlast⟩⟩ := of_attempt hm
    · cases hr
    · exact ⟨idle, hidle, ys, by simp, .inr ⟨a, rfl, hlast⟩⟩

theorem poll {limit : PollLimit} {probe : Driver σ (Option α)} {r : Except Halt (Option α)}
    (h : (limit.poll probe).Runs r xs) : Polled limit probe r xs := by
  cases limit with
  | unbounded =>
    obtain ⟨r', hloop, rfl⟩ := map h
    obtain ⟨idle, hidle, ys, rfl, ⟨e, rfl, hlast⟩ | ⟨a, rfl, hlast⟩⟩ := of_repeatUntil hloop
    · exact .halted hidle nofun hlast
    · exact .hit hidle nofun hlast
  | attempts n =>
    have hallows {k : Nat} (hk : k < n.toNat) : (PollLimit.attempts n).Allows k := by
      rintro _ ⟨rfl⟩
      exact hk
    obtain ⟨idle, hidle, ⟨rfl, hlen, rfl⟩ | ⟨hlen, hr, ys, rfl, hlast⟩⟩ := of_attempt h
    · exact .spent hidle rfl hlen
    · rcases r with e | _ | a
      · exact .halted hidle (hallows hlen) (.inr hlast)
      · exact absurd rfl hr
      · exact .hit hidle (hallows hlen) hlast

end Driver.Runs

/-- How polling one register under `limit` may go, where `f` tells what ends the polling. -/
inductive PolledRegister (limit : PollLimit) (register : StatusRegister) (f : UInt32 → Option α) :
    Except Halt (Option α) → List Access → Prop
  | hit {idle : List UInt32} {word : UInt32} {a : α} (hidle : ∀ w ∈ idle, f w = none)
      (hlimit : limit.Allows idle.length) (hlast : f word = some a) :
      PolledRegister limit register f (.ok (some a)) ((idle ++ [word]).map (.read register))
  | spent {idle : List UInt32} {n : UInt32} (hidle : ∀ w ∈ idle, f w = none)
      (hlimit : limit = .attempts n) (hlength : idle.length = n.toNat) :
      PolledRegister limit register f (.ok none) (idle.map (.read register))
  | halted {idle : List UInt32} {e : Halt} (hidle : ∀ w ∈ idle, f w = none)
      (hlimit : limit.Allows idle.length) :
      PolledRegister limit register f (.error e) (idle.map (.read register))

theorem PolledRegister.exists_words {limit : PollLimit} {register : StatusRegister} {f : UInt32 → Option α}
    {r : Except Halt (Option α)} {xs : List Access} (h : PolledRegister limit register f r xs) :
    ∃ words : List UInt32, xs = words.map (.read register) := by
  cases h <;> exact ⟨_, rfl⟩

namespace Driver.Runs

variable [Device σ] {xs : List Access}

theorem of_probe {register : StatusRegister} {f : UInt32 → Option α} {r : Except Halt (Option α)}
    (h : (read register >>= fun word => pure (f word) : Driver σ (Option α)).Runs r xs) :
    (r = .error .outOfBudget ∧ xs = []) ∨ ∃ word, r = .ok (f word) ∧ xs = [.read register word] := by
  rcases h.of_read_bind with h | ⟨word, ys, rfl, hf⟩
  · exact .inl h
  · obtain ⟨rfl, rfl⟩ := of_pure hf
    exact .inr ⟨word, rfl, rfl⟩

/-- Idle rounds of one read each, as the words that were read. -/
theorem exists_words {register : StatusRegister} {f : UInt32 → Option α} {idle : List (List Access)}
    (h : ∀ xs ∈ idle, (read register >>= fun word => pure (f word) : Driver σ (Option α)).Runs (.ok none) xs) :
    ∃ words : List UInt32, idle.flatten = words.map (.read register) ∧ words.length = idle.length ∧
      ∀ w ∈ words, f w = none := by
  obtain ⟨words, rfl, hwords⟩ : ∃ words : List UInt32, idle = words.map (fun w => [Access.read register w]) ∧
      ∀ w ∈ words, f w = none := by
    refine exists_eq_map_of_forall_mem fun xs hxs => ?_
    obtain ⟨⟨⟩, -⟩ | ⟨word, hword, rfl⟩ := (h xs hxs).of_probe
    exact ⟨word, rfl, (Except.ok.inj hword).symm⟩
  exact ⟨words, by simp [← List.flatMap_def, ← List.map_eq_flatMap], by simp, hwords⟩

theorem pollRegister {limit : PollLimit} {register : StatusRegister} {f : UInt32 → Option α}
    {r : Except Halt (Option α)}
    (h : (limit.poll (read register >>= fun word => pure (f word)) : Driver σ (Option α)).Runs r xs) :
    PolledRegister limit register f r xs := by
  cases h.poll with
  | hit hidle hlimit hlast =>
    obtain ⟨words, hflat, hlen, hwords⟩ := exists_words hidle
    obtain ⟨⟨⟩, -⟩ | ⟨word, hword, rfl⟩ := hlast.of_probe
    rw [hflat, ← List.map_singleton, ← List.map_append]
    exact .hit hwords (hlen ▸ hlimit) (Except.ok.inj hword).symm
  | spent hidle hlimit hlength =>
    obtain ⟨words, hflat, hlen, hwords⟩ := exists_words hidle
    rw [hflat]
    exact .spent hwords hlimit (hlen.trans hlength)
  | @halted _ _ ys hidle hlimit hlast =>
    obtain ⟨words, hflat, hlen, hwords⟩ := exists_words hidle
    obtain rfl : ys = [] := by
      rcases hlast with rfl | hlast
      · rfl
      · obtain ⟨-, rfl⟩ | ⟨_, ⟨⟩, -⟩ := hlast.of_probe
        rfl
    rw [hflat, List.append_nil]
    exact .halted hwords (hlen ▸ hlimit)

end Driver.Runs

end SecureDigital

import SecureDigital.Proofs.Budget

/-!
# Programs that differ in their patience

Every poll that is given up is reported, and nothing else is reported so: `Outcome.Unexhausted` says that none was.
`Driver.Follows f m m'`: where `m` gives up no poll, `m'` makes the same run, and returns what `m` returns, by way of
`f`. The rules follow the program text. The one that matters is `Follows.poll_bind`: a poll that is not given up goes on
alike under every limit that is no lower (`poll_of_le`), also under none, since a loop without bound stops only for want
of budget (`attempt_ne_none`).
-/

namespace SecureDigital

variable {σ α β : Type}

/-! ### Limits -/

inductive PollLimit.Le : PollLimit → PollLimit → Prop
  | attempts {n n' : UInt32} (h : n ≤ n') : Le (.attempts n) (.attempts n')
  | unbounded (limit : PollLimit) : Le limit .unbounded

instance : LE PollLimit := ⟨PollLimit.Le⟩

namespace Driver
variable {body probe : Driver σ (Option α)} {s : σ} {b : Nat}

/-- More rounds change nothing where fewer have been enough. -/
theorem attempt_of_le {n n' : Nat} (hle : n ≤ n') (h : ((attempt n body).run s b).result ≠ .ok none) :
    (attempt n' body).run s b = (attempt n body).run s b := by
  induction n generalizing n' s b with
  | zero => exact absurd rfl h
  | succ n ih =>
    cases n' with
    | zero => exact absurd hle (Nat.not_succ_le_zero n)
    | succ n' =>
      simp only [run, attempt, bind_apply] at h ih ⊢
      rcases hrun : body s b with ⟨e | _ | a, s', b', xs, ns⟩ <;> simp only [hrun] at h ⊢
      rw [ih (Nat.le_of_succ_le_succ hle) h]

/-- A loop without bound is one with more rounds than budget. -/
theorem poll_unbounded (h : ((attempt (b + 1) probe).run s b).result ≠ .ok none) :
    (PollLimit.unbounded.poll probe).run s b = (attempt (b + 1) probe).run s b := by
  have hpoll : PollLimit.unbounded.poll probe = repeatUntil probe >>= fun a => pure (some a) :=
    (bind_pure_comp _ _).symm
  have hloop : repeatUntil probe s b = (attempt (b + 1) probe >>= orOutOfBudget) s b := rfl
  rw [hpoll]
  simp only [run, bind_apply] at h hloop ⊢
  rw [hloop]
  rcases hrun : attempt (b + 1) probe s b with ⟨e | _ | a, s', b', xs, ns⟩ <;> simp only [hrun] at h ⊢
  · exact absurd rfl h
  · simp [orOutOfBudget, pure_apply]

theorem poll_of_le {limit limit' : PollLimit} (hle : limit ≤ limit') (hpaced : probe.Paced)
    (h : ((limit.poll probe).run s b).result ≠ .ok none) :
    (limit'.poll probe).run s b = (limit.poll probe).run s b := by
  cases hle with
  | attempts hn => exact attempt_of_le (UInt32.le_iff_toNat_le.1 hn) h
  | unbounded =>
    cases limit with
    | unbounded => rfl
    | attempts n =>
      have hbudget := hpaced.attempt_ne_none s (Nat.lt_succ_self b)
      rw [poll_unbounded hbudget]
      rcases Nat.le_total n.toNat (b + 1) with hn | hn
      · exact attempt_of_le hn h
      · exact (attempt_of_le hn hbudget).symm

end Driver

/-! ### Reports of a poll that was given up -/

def Notice.reportsExhaustion : Notice → Bool
  | .pollExhausted _ | .readerStuck _ | .notPoweredUp => true
  | _ => false

namespace Outcome

/-- No poll was given up. -/
def Unexhausted (o : Outcome σ α) : Prop := ∀ n ∈ o.notices, ¬ n.reportsExhaustion

instance (o : Outcome σ α) : Decidable o.Unexhausted :=
  inferInstanceAs (Decidable (∀ n ∈ o.notices, ¬ n.reportsExhaustion))

def map (f : α → β) (o : Outcome σ α) : Outcome σ β := { o with result := o.result.map f }

theorem map_id (o : Outcome σ α) : o.map id = o := by
  rcases o with ⟨_ | _, _, _, _, _⟩ <;> rfl

end Outcome

theorem Outcome.Unexhausted.of_bind {m : Driver σ α} {k : α → Driver σ β} {s : σ} {b : Nat}
    (h : ((m >>= k).run s b).Unexhausted) : (m.run s b).Unexhausted ∧ ∀ a, (m.run s b).result = .ok a →
      ((k a).run (m.run s b).device (m.run s b).budget).Unexhausted := by
  simp only [Driver.run, Driver.bind_apply] at h ⊢
  rcases hrun : m s b with ⟨e | a, s', b', xs, ns⟩ <;> simp only [hrun] at h ⊢
  · refine ⟨h, fun a ha => ?_⟩
    cases ha
  · refine ⟨fun n hn => h n (List.mem_append_left _ hn), fun a' ha n hn => ?_⟩
    cases ha
    exact h n (List.mem_append_right _ hn)

namespace Driver
variable {α' β' : Type} {f : α → α'} {g : β → β'}

theorem run_bind_map {m : Driver σ α} {m' : Driver σ α'} {k : α → Driver σ β} {k' : α' → Driver σ β'} {s : σ} {b : Nat}
    (hm : m'.run s b = (m.run s b).map f) (hk : ∀ a, (m.run s b).result = .ok a →
      (k' (f a)).run (m.run s b).device (m.run s b).budget =
        ((k a).run (m.run s b).device (m.run s b).budget).map g) :
    (m' >>= k').run s b = ((m >>= k).run s b).map g := by
  simp only [run, bind_apply] at hm hk ⊢
  rw [hm]
  rcases hrun : m s b with ⟨e | a, s', b', xs, ns⟩ <;> simp only [hrun] at hk
  · rfl
  · simp only [Outcome.map, Except.map, hk a rfl]

def Follows (f : α → α') (m : Driver σ α) (m' : Driver σ α') : Prop :=
  ∀ s b, (m.run s b).Unexhausted → m'.run s b = (m.run s b).map f

namespace Follows

theorem refl (m : Driver σ α) : Follows id m m := fun s b _ => (Outcome.map_id (m.run s b)).symm

theorem pure {a : α} {a' : α'} (h : a' = f a) : Follows f (Pure.pure a : Driver σ α) (Pure.pure a') := by
  subst h
  exact fun _ _ _ => rfl

theorem bind {m : Driver σ α} {m' : Driver σ α'} {k : α → Driver σ β} {k' : α' → Driver σ β'} (hm : Follows f m m')
    (hk : ∀ a xs, m.Runs (.ok a) xs → Follows g (k a) (k' (f a))) : Follows g (m >>= k) (m' >>= k') := by
  intro s b h
  obtain ⟨hfirst, hsecond⟩ := h.of_bind
  exact run_bind_map (hm s b hfirst) fun a ha => hk a _ ⟨s, b, ha, rfl⟩ _ _ (hsecond a ha)

theorem attempt {body body' : Driver σ (Option α)} (hbody : Follows id body body') (n : Nat) :
    Follows id (Driver.attempt n body) (Driver.attempt n body') := by
  induction n with
  | zero => exact refl _
  | succ n ih =>
    refine bind hbody fun a _ _ => ?_
    cases a with
    | none => exact ih
    | some a => exact refl _

theorem poll {probe probe' : Driver σ (Option α)} (limit : PollLimit) (hprobe : Follows id probe probe') :
    Follows id (limit.poll probe) (limit.poll probe') := by
  cases limit with
  | attempts n => exact attempt hprobe n.toNat
  | unbounded =>
    have hloop : Follows id (repeatUntil probe) (repeatUntil probe') := fun s b =>
      bind (attempt hprobe (b + 1)) (fun a _ _ => refl (orOutOfBudget a)) s b
    exact bind hloop fun a _ _ => refl _

/-- A poll that is reported if it is given up. -/
theorem poll_bind {limit limit' : PollLimit} {probe probe' : Driver σ (Option α)} {k : Option α → Driver σ β}
    {k' : Option α → Driver σ β'} (hle : limit ≤ limit') (hpaced : probe'.Paced) (hprobe : Follows id probe probe')
    (hmissed : ∀ s b, ¬ ((k none).run s b).Unexhausted) (hfound : ∀ a, Follows g (k (some a)) (k' (some a))) :
    Follows g (limit.poll probe >>= k) (limit'.poll probe' >>= k') := by
  intro s b h
  obtain ⟨hfirst, hsecond⟩ := h.of_bind
  have hne : ((limit.poll probe).run s b).result ≠ .ok none := fun hnone => hmissed _ _ (hsecond none hnone)
  have hsame : (limit.poll probe').run s b = (limit.poll probe).run s b := by
    rw [poll limit hprobe s b hfirst, Outcome.map_id]
  have hmore : (limit'.poll probe').run s b = ((limit.poll probe).run s b).map id := by
    rw [Outcome.map_id, ← hsame]
    exact poll_of_le hle hpaced (hsame ▸ hne)
  refine run_bind_map hmore fun a ha => ?_
  cases a with
  | none => exact absurd ha hne
  | some a => exact hfound a _ _ (hsecond _ ha)

/-! Programs that may fail -/

theorem refl_fallible (x : Fallible σ α) : Follows (Except.map id) x.run x.run := by
  rw [Except.map_id]
  exact refl x.run

theorem pure_fallible {a : α} {a' : α'} (h : a' = f a) :
    Follows (Except.map f) (Pure.pure a : Fallible σ α).run (Pure.pure a' : Fallible σ α').run :=
  pure (congrArg Except.ok h)

theorem bindFallible {x : Fallible σ α} {x' : Fallible σ α'} {k : α → Fallible σ β} {k' : α' → Fallible σ β'}
    (hx : Follows (Except.map f) x.run x'.run)
    (hk : ∀ a xs, x.run.Runs (.ok (.ok a)) xs → Follows (Except.map g) (k a).run (k' (f a)).run) :
    Follows (Except.map g) (x >>= k).run (x' >>= k').run := by
  rw [ExceptT.run_bind, ExceptT.run_bind]
  refine bind hx fun r xs hrun => ?_
  cases r with
  | error e => exact pure rfl
  | ok a => exact hk a xs hrun

theorem bindLift {m : Driver σ α} {m' : Driver σ α'} {k : α → Fallible σ β} {k' : α' → Fallible σ β'}
    (hm : Follows f m m') (hk : ∀ a, Follows (Except.map g) (k a).run (k' (f a)).run) :
    Follows (Except.map g) (ExceptT.lift m >>= k).run (ExceptT.lift m' >>= k').run := by
  rw [ExceptT.run_bind_lift, ExceptT.run_bind_lift]
  exact bind hm fun a _ _ => hk a

end Follows

end Driver

end SecureDigital

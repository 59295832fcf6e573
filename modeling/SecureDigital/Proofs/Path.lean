import SecureDigital.Proofs.Compositional

/-!
# Runs as paths of the device

`Path s xs s'`: the accesses `xs` take the device from `s` to `s'`. Every run of the driver is such a path, up
to an access that is refused and ends it (`Driver.Tracked`), so what each access preserves, a whole run preserves
(`Path.foldl`), also where it speaks of the accesses made so far.
-/

namespace SecureDigital

variable {σ α β : Type} [Device σ]

inductive Access.Step : σ → Access → σ → Prop
  | write {s s' : σ} {register : ControlRegister} {value : UInt32} (h : Device.write s register value = some s') :
      Step s (.write register value) s'
  | read (s : σ) (register : StatusRegister) :
      Step s (.read register (Device.read s register).1) (Device.read s register).2
  | readMemory {s s' : σ} {address : UInt32} {length : Nat} {bytes : Vector UInt8 length}
      (h : Device.readMemory s address length = some (bytes, s')) :
      Step s (.readMemory address length bytes.toArray) s'
  | writeMemory {s s' : σ} {address : UInt32} {bytes : Array UInt8}
      (h : Device.writeMemory s address bytes = some s') : Step s (.writeMemory address bytes) s'

inductive Path : σ → List Access → σ → Prop
  | nil (s : σ) : Path s [] s
  | cons {s t s' : σ} {a : Access} {xs : List Access} (ha : a.Step s t) (hxs : Path t xs s') : Path s (a :: xs) s'

namespace Path

variable {s t s' : σ} {xs ys : List Access}

theorem single {a : Access} (h : a.Step s s') : Path s [a] s' := .cons h (.nil s')

theorem append (h : Path s xs t) (h' : Path t ys s') : Path s (xs ++ ys) s' := by
  induction h with
  | nil => exact h'
  | cons ha _ ih => exact .cons ha (ih h')

/-- What every step preserves of the device and of what is observed of the accesses. -/
theorem foldl {γ : Type} {observe : γ → Access → γ} {I : γ → σ → Prop}
    (hstep : ∀ c s a s', a.Step s s' → I c s → I (observe c a) s') (h : Path s xs s') (c : γ) (hs : I c s) :
    I (xs.foldl observe c) s' := by
  induction h generalizing c with
  | nil => exact hs
  | cons ha _ ih => exact ih _ (hstep _ _ _ _ ha hs)

end Path

/-- Every run of `m` is a path, unless an access is refused. -/
def Driver.Traced (m : Driver σ α) : Prop :=
  ∀ s b, (m.run s b).result ≠ .error .refused → Path s (m.run s b).accesses (m.run s b).device

/-- Every run of `m` is a path, up to an access that is refused and ends it. -/
def Driver.Tracked (m : Driver σ α) : Prop :=
  ∀ s b, ∃ xs, Path s xs (m.run s b).device ∧ ((m.run s b).accesses = xs ∨
    (m.run s b).result = .error .refused ∧ ∃ a, (m.run s b).accesses = xs ++ [a])

namespace Driver.Tracked

theorem traced {m : Driver σ α} (h : m.Tracked) : m.Traced := by
  intro s b hresult
  obtain ⟨xs, hpath, rfl | ⟨hrefused, -⟩⟩ := h s b
  · exact hpath
  · exact absurd hrefused hresult

theorem bind {m : Driver σ α} {f : α → Driver σ β} (hm : m.Tracked) (hf : ∀ a, (f a).Tracked) : (m >>= f).Tracked := by
  intro s b
  obtain ⟨xs, hpath, hend⟩ := hm s b
  simp only [run, bind_apply] at hpath hend ⊢
  rcases hrun : m s b with ⟨e | a, s', b', ys, ns⟩ <;> rw [hrun] at hpath hend
  · refine ⟨xs, hpath, hend.imp_right (And.imp_left fun hrefused => ?_)⟩
    cases hrefused
    rfl
  · obtain rfl : ys = xs := hend.resolve_right fun h => by cases h.1
    obtain ⟨zs, hpath', hend'⟩ := hf a s' b'
    refine ⟨ys ++ zs, hpath.append hpath', ?_⟩
    rcases hend' with hall | ⟨hrefused, last, hlast⟩
    · exact .inl (congrArg (ys ++ ·) hall)
    · exact .inr ⟨hrefused, last, (congrArg (ys ++ ·) hlast).trans (List.append_assoc ..).symm⟩

theorem compositional : Compositional (σ := σ) Tracked where
  pure a s b := ⟨[], .nil s, .inl rfl⟩
  notes ns s b := ⟨[], .nil s, .inl rfl⟩
  halt e s b := ⟨[], .nil s, .inl rfl⟩
  bind := bind
  write register value s b := by
    cases b with
    | zero => exact ⟨[], .nil s, .inl rfl⟩
    | succ b =>
      simp only [run, Driver.write, spend]
      cases h : Device.write s register value with
      | none => exact ⟨[], .nil s, .inr ⟨rfl, _, rfl⟩⟩
      | some s' => exact ⟨_, .single (.write h), .inl rfl⟩
  read register s b := by
    cases b with
    | zero => exact ⟨[], .nil s, .inl rfl⟩
    | succ b => exact ⟨_, .single (.read s register), .inl rfl⟩
  readMemory address length s b := by
    cases b with
    | zero => exact ⟨[], .nil s, .inl rfl⟩
    | succ b =>
      simp only [run, Driver.readMemory, spend]
      cases h : Device.readMemory s address length with
      | none => exact ⟨[], .nil s, .inr ⟨rfl, _, rfl⟩⟩
      | some p => exact ⟨_, .single (.readMemory h), .inl rfl⟩
  of_runs h s b := by
    obtain ⟨m', hm', hrun⟩ := h s b
    rw [← hrun]
    exact hm' s b

end Driver.Tracked

end SecureDigital

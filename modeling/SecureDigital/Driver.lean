import SecureDigital.Device
import SecureDigital.Notice

/-!
# Driver programs and their runs

A `Driver σ α` is a program of the driver over a device with states `σ`. A run starts from a state and
a budget of accesses; its `Outcome` holds what the program returned, the state and budget it left, and
the accesses and notices it made on the way. Each access costs 1. A run halts when it wants an access
without budget, which is then not made, or when the device refuses one.

The budget bounds the endless loops too: `repeatUntil` runs its body as long as it yields nothing, and
a body that makes an access each time runs out of budget before the loop runs out of rounds.
-/

namespace SecureDigital

inductive Halt
  | outOfBudget
  | refused
deriving DecidableEq

structure Outcome (σ α : Type) where
  result : Except Halt α
  device : σ
  budget : Nat
  accesses : List Access
  notices : List Notice

def Driver (σ α : Type) : Type := σ → Nat → Outcome σ α

namespace Driver

variable {σ α β γ : Type}

def run (m : Driver σ α) (s : σ) (b : Nat) : Outcome σ α := m s b

protected def pure (a : α) : Driver σ α := fun s b => ⟨.ok a, s, b, [], []⟩

protected def bind (m : Driver σ α) (f : α → Driver σ β) : Driver σ β := fun s b =>
  let o := m s b
  match o.result with
  | .error h => ⟨.error h, o.device, o.budget, o.accesses, o.notices⟩
  | .ok a =>
    let p := f a o.device o.budget
    ⟨p.result, p.device, p.budget, o.accesses ++ p.accesses, o.notices ++ p.notices⟩

instance : Monad (Driver σ) where
  pure := Driver.pure
  bind := Driver.bind

theorem pure_apply (a : α) (s : σ) (b : Nat) : (pure a : Driver σ α) s b = ⟨.ok a, s, b, [], []⟩ :=
  rfl

/-- The second program runs only where the first one returns, and its accesses and notices follow
those of the first. -/
theorem bind_apply (m : Driver σ α) (f : α → Driver σ β) (s : σ) (b : Nat) :
    (m >>= f) s b =
      match m s b with
      | ⟨.error h, s', b', accesses, notices⟩ => ⟨.error h, s', b', accesses, notices⟩
      | ⟨.ok a, s', b', accesses, notices⟩ =>
        let o := f a s' b'
        ⟨o.result, o.device, o.budget, accesses ++ o.accesses, notices ++ o.notices⟩ := by
  show Driver.bind m f s b = _
  unfold Driver.bind
  rcases m s b with ⟨_ | _, _, _, _, _⟩ <;> rfl

theorem bind_pure_self (m : Driver σ α) : m >>= pure = m := by
  funext s b
  rw [bind_apply]
  rcases m s b with ⟨_ | _, _, _, _, _⟩ <;> simp [pure_apply]

theorem pure_bind_self (a : α) (f : α → Driver σ β) : pure a >>= f = f a := by
  funext s b
  simp [bind_apply, pure_apply]

theorem bind_bind (m : Driver σ α) (f : α → Driver σ β) (g : β → Driver σ γ) :
    m >>= f >>= g = m >>= fun a => f a >>= g := by
  funext s b
  simp only [bind_apply]
  rcases m s b with ⟨_ | a, s', b', _, _⟩
  · rfl
  · simp only
    rcases f a s' b' with ⟨_ | _, _, _, _, _⟩ <;> simp

instance : LawfulMonad (Driver σ) := LawfulMonad.mk' _ bind_pure_self pure_bind_self bind_bind

def halt (h : Halt) : Driver σ α := fun s b => ⟨.error h, s, b, [], []⟩

def notes (ns : List Notice) : Driver σ Unit := fun s b => ⟨.ok (), s, b, [], ns⟩

def note (n : Notice) : Driver σ Unit := notes [n]

/-- Runs `m` if there is budget for an access, with one less. -/
def spend (m : Driver σ α) : Driver σ α := fun s b =>
  match b with
  | 0 => halt .outOfBudget s 0
  | b + 1 => m s b

section Accesses

variable [Device σ]

def write (register : ControlRegister) (value : UInt32) : Driver σ Unit :=
  spend fun s b =>
    match Device.write s register value with
    | none => ⟨.error .refused, s, b, [.write register value], []⟩
    | some s' => ⟨.ok (), s', b, [.write register value], []⟩

def read (register : StatusRegister) : Driver σ UInt32 :=
  spend fun s b =>
    let (value, s') := Device.read s register
    ⟨.ok value, s', b, [.read register value], []⟩

def readMemory (address : UInt32) (length : Nat) : Driver σ (Vector UInt8 length) :=
  spend fun s b =>
    match Device.readMemory s address length with
    | none => ⟨.error .refused, s, b, [.readMemory address length #[]], []⟩
    | some (bytes, s') => ⟨.ok bytes, s', b, [.readMemory address length bytes.toArray], []⟩

def writeMemory (address : UInt32) (bytes : Array UInt8) : Driver σ Unit :=
  spend fun s b =>
    match Device.writeMemory s address bytes with
    | none => ⟨.error .refused, s, b, [.writeMemory address bytes], []⟩
    | some s' => ⟨.ok (), s', b, [.writeMemory address bytes], []⟩

end Accesses

/-- Runs `body` until it yields a value, at most `rounds` times. -/
def attempt : (rounds : Nat) → (body : Driver σ (Option α)) → Driver σ (Option α)
  | 0, _ => pure none
  | rounds + 1, body => do
    match ← body with
    | some a => pure (some a)
    | none => attempt rounds body

/-- What a loop yields whose rounds are used up. -/
def orOutOfBudget : Option α → Driver σ α
  | some a => pure a
  | none => halt .outOfBudget

def repeatUntil (body : Driver σ (Option α)) : Driver σ α := fun s b =>
  (attempt (b + 1) body >>= orOutOfBudget) s b

end Driver

/-- A program that may end in an error of the driver's, other than by halting. -/
abbrev Fallible (σ α : Type) : Type := ExceptT Error (Driver σ) α

def PollLimit.poll {σ α : Type} (limit : PollLimit) (probe : Driver σ (Option α)) :
    Driver σ (Option α) :=
  match limit with
  | .unbounded => some <$> Driver.repeatUntil probe
  | .attempts n => Driver.attempt n.toNat probe

end SecureDigital
